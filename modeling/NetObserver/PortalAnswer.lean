import NetObserver.PortalProber
import NetObserver.StdText
import NetObserver.Utf8Lossy

/-! What the captive-detect answer is read as when it breaks off. -/

namespace NetObserver
namespace PortalAnswer

open StdText Utf8Lossy

/-- The status code of an `HTTP/1.x NNN …` line. -/
def parseStatus (line : List Char) : Option Nat :=
  if "HTTP/".toList.isPrefixOf line then
    match asciiWords (line.drop "HTTP/".toList.length) with
    | _ :: code :: _ => parseUnsigned 65535 code
    | _ => none
  else none

def blankLine : List Char := ['\r', '\n', '\r', '\n']

/-- A header block never terminated has no body. -/
def headAndBody (text : List Char) : List Char × List Char :=
  match splitOnceAt blankLine text with
  | some pair => pair
  | none => (text, [])

/-- The first line of the head, empty where there is none. -/
def statusLineOf (text : List Char) : List Char := (lines (headAndBody text).1).headD []

/-- The login page that a header names. -/
def location (headers : List (List Char)) : Option (List Char) :=
  let fields := headers.filterMap fun line =>
    (splitOnce ':' line).2.map fun value => ((splitOnce ':' line).1, value)
  let found := fields.find? fun field => Mdns.eqIgnoreAsciiCase (String.ofList field.1) "location"
  (found.map fun field => trim field.2).filter fun value => !value.isEmpty

def shape (status : Nat) : String :=
  if 300 ≤ status ∧ status < 400 then "redirect " ++ toString status
  else "HTTP " ++ toString status ++ " without Success"

def readText (text : List Char) : ProbeReading :=
  let (head, body) := headAndBody text
  match parseStatus (statusLineOf text) with
  -- The precision that the source gives the escaped line does not shorten it.
  | none =>
    .unreadable
      (String.ofList ("not an HTTP response: ".toList ++ escapeDefault (statusLineOf text)))
  | some status =>
    if status = 200 ∧ contains "Success".toList body = true then .clean
    else if status = 200 ∧ (trim body).isEmpty = true then .unreadable "HTTP 200 with no body read"
    else .intercepted ((location (lines head).tail).map String.ofList) (shape status)

def readResponse (bytes : List UInt8) : ProbeReading := readText (decodeFrom 0 bytes)

/-- The octets of an ASCII text. -/
def octets (s : String) : List UInt8 := s.toList.map Char.toUInt8

example : readResponse (octets "HTTP/1.1 302 Found\r\nServer: a\r\nlocation: http://b/?c\r\n\r\n") =
    .intercepted (some "http://b/?c") "redirect 302" := rfl

/-- Read as a portal's answer. -/
def Fabricated (reading : ProbeReading) : Prop := ∃ url shape, reading = .intercepted url shape

theorem fabricated_readText_iff {text : List Char} :
    Fabricated (readText text) ↔
      ∃ status, parseStatus (statusLineOf text) = some status ∧
        ¬ (status = 200 ∧ (contains "Success".toList (headAndBody text).2 = true ∨
          trim (headAndBody text).2 = [])) := by
  unfold Fabricated
  constructor
  · rintro ⟨url, shape, read⟩
    simp only [readText] at read
    split at read
    next => cases read
    next status parsed =>
      refine ⟨status, parsed, ?_⟩
      rintro ⟨ok, held | blank⟩
      · rw [if_pos ⟨ok, held⟩] at read
        cases read
      · split at read
        next => cases read
        next =>
          rw [if_pos ⟨ok, List.isEmpty_iff.mpr blank⟩] at read
          cases read
  · rintro ⟨status, parsed, other⟩
    have unclean : ¬ (status = 200 ∧ contains "Success".toList (headAndBody text).2 = true) :=
      fun clean => other ⟨clean.1, .inl clean.2⟩
    have held : ¬ (status = 200 ∧ (trim (headAndBody text).2).isEmpty = true) :=
      fun blank => other ⟨blank.1, .inr (List.isEmpty_iff.mp blank.2)⟩
    refine ⟨(location (lines (headAndBody text).1).tail).map String.ofList, shape status, ?_⟩
    simp only [readText, parsed]
    rw [if_neg unclean, if_neg held]

/-- A word that the text starts with, and that ends there. -/
def Ends (word text : List Char) : Prop :=
  ∃ rest, text = word ++ rest ∧ ∀ c ∈ rest.head?, isAsciiWhitespace c = true

theorem Ends.of_prefix {word text part : List Char} (ends : Ends word text) (front : part <+: text)
    (long : word <+: part) : Ends word part := by
  obtain ⟨rest, rfl, space⟩ := ends
  obtain ⟨kept, rfl⟩ := long
  rw [List.prefix_append_right_inj] at front
  refine ⟨kept, rfl, ?_⟩
  intro c first
  apply space
  cases kept with
  | nil => cases first
  | cons d kept =>
    cases first
    cases rest with
    | nil => simp at front
    | cons e rest =>
      rw [List.cons_prefix_cons] at front
      rw [front.1]
      rfl

/-- A word without the character is not cut at it. -/
theorem prefix_before {word a b : List Char} {c : Char} (front : word <+: a ++ c :: b)
    (absent : c ∉ word) : word <+: a := by
  rcases List.prefix_or_prefix_of_prefix front (List.prefix_append a (c :: b)) with short | long
  · exact short
  · obtain ⟨rest, rfl⟩ := long
    rw [List.prefix_append_right_inj] at front
    cases rest with
    | nil => simp
    | cons d rest =>
      rw [List.cons_prefix_cons] at front
      exact absurd (by simp [front.1]) absent

theorem Ends.head {word text : List Char} (ends : Ends word text) (absent : '\r' ∉ word) :
    Ends word (headAndBody text).1 := by
  unfold headAndBody
  split
  next pair split =>
    obtain ⟨a, b⟩ := pair
    have whole := splitOnceAt_some split
    have front : word <+: a ++ '\r' :: (['\n', '\r', '\n'] ++ b) := by
      obtain ⟨rest, eq, _⟩ := ends
      exact ⟨rest, by rw [← eq, whole]; rfl⟩
    apply ends.of_prefix ⟨blankLine ++ b, whole.symm⟩
    exact prefix_before front absent
  next => exact ends

theorem Ends.statusLine {word text : List Char} (ends : Ends word text) (noReturn : '\r' ∉ word)
    (noEnd : '\n' ∉ word) : Ends word ((lines text).headD []) := by
  rcases lines_headD_cases text with eq | ⟨a, b, rfl, eq⟩
  · rw [eq]
    exact ends
  · have front : word <+: a ++ '\n' :: b := ends.imp fun rest whole => whole.1.symm
    have before := ends.of_prefix (List.prefix_append a ('\n' :: b)) (prefix_before front noEnd)
    rw [eq]
    split
    next return_ =>
      have whole : a = a.dropLast ++ ['\r'] := (List.dropLast_append_getLast? '\r' return_).symm
      apply before.of_prefix (List.dropLast_prefix a)
      have front' : word <+: a.dropLast ++ ['\r'] := by
        rw [← whole]
        exact prefix_before front noEnd
      exact prefix_before front' noReturn
    next => exact before

theorem asciiWords_cons {word rest : List Char} {c : Char}
    (plain : ∀ d ∈ word, isAsciiWhitespace d = false) (space : isAsciiWhitespace c = true)
    (some_ : word ≠ []) : asciiWords (word ++ c :: rest) = word :: asciiWords rest := by
  unfold asciiWords
  rw [List.splitOnP_append_cons_of_forall_mem plain c space, List.filter_cons_of_pos]
  simpa using some_

theorem asciiWords_plain {word : List Char} (plain : ∀ d ∈ word, isAsciiWhitespace d = false) :
    asciiWords word = if word = [] then [] else [word] := by
  unfold asciiWords
  rw [List.splitOnP_eq_singleton plain]
  cases word with
  | nil => rfl
  | cons c word => rfl

/-- The status is read off a line whose code ends where it ends or at a blank. -/
theorem parseStatus_of_ends {version code line : List Char}
    (plain : ∀ d ∈ version, isAsciiWhitespace d = false) (named : version ≠ [])
    (plain' : ∀ d ∈ code, isAsciiWhitespace d = false) (some_ : code ≠ [])
    (ends : Ends ("HTTP/".toList ++ (version ++ ' ' :: code)) line) :
    parseStatus line = parseUnsigned 65535 code := by
  obtain ⟨rest, rfl, space⟩ := ends
  have front : "HTTP/".toList.isPrefixOf ("HTTP/".toList ++ (version ++ ' ' :: code) ++ rest) =
      true := by
    rw [List.isPrefixOf_iff_prefix, List.append_assoc]
    exact List.prefix_append _ _
  have words : ∃ more, asciiWords (code ++ rest) = code :: more := by
    cases rest with
    | nil => exact ⟨[], by rw [List.append_nil, asciiWords_plain plain', if_neg some_]⟩
    | cons c rest => exact ⟨_, asciiWords_cons plain' (space c rfl) some_⟩
  obtain ⟨more, words⟩ := words
  unfold parseStatus
  rw [if_pos front, List.append_assoc, List.drop_left, List.append_assoc, List.cons_append,
    asciiWords_cons plain rfl named, words]

/-- A line of less than two words names no status. -/
theorem parseStatus_of_short {line : List Char}
    (short : (asciiWords (line.drop "HTTP/".toList.length)).length ≤ 1) :
    parseStatus line = none := by
  unfold parseStatus
  split
  next =>
    split
    next words =>
      rw [words] at short
      simp at short
    next => rfl
  next => rfl

theorem parseStatus_of_plain {line : List Char}
    (plain : ∀ d ∈ line, isAsciiWhitespace d = false) : parseStatus line = none := by
  apply parseStatus_of_short
  rw [asciiWords_plain fun d mem => plain d (List.mem_of_mem_drop mem)]
  split <;> simp

theorem parseStatus_of_version {version : List Char}
    (plain : ∀ d ∈ version, isAsciiWhitespace d = false) (named : version ≠ []) :
    parseStatus ("HTTP/".toList ++ (version ++ [' '])) = none := by
  apply parseStatus_of_short
  rw [List.drop_left, asciiWords_cons plain rfl named, asciiWords_plain (by simp)]
  simp

theorem statusLineOf_plain {text : List Char} (noReturn : '\r' ∉ text) (noEnd : '\n' ∉ text) :
    statusLineOf text = text := by
  have absent : ¬ blankLine <:+: text := fun within => noReturn (within.subset List.mem_cons_self)
  unfold statusLineOf headAndBody
  rw [splitOnceAt_absent absent]
  rcases lines_headD_cases text with eq | ⟨a, b, rfl, _⟩
  · exact eq
  · exact absurd (List.mem_append_right a List.mem_cons_self) noEnd

def crlf : List UInt8 := [13, 10]

/-- No byte of it ends a line. -/
def OneLine (line : List UInt8) : Prop := 13 ∉ line ∧ 10 ∉ line

/-- What the endpoint itself answers: `HTTP/1.x 200` with any reason, any headers, a blank line and
a page with the word. -/
structure GenuineAnswer where
  minor : UInt8
  reason : Option (List UInt8)
  headers : List (List UInt8)
  page : List UInt8
  minor_digit : 48 ≤ minor ∧ minor ≤ 57
  reason_line : ∀ words ∈ reason, OneLine words
  headers_line : ∀ header ∈ headers, header ≠ [] ∧ OneLine header
  page_success : octets "Success" <:+: page

namespace GenuineAnswer

variable (g : GenuineAnswer)

def version : List UInt8 := octets "HTTP/1." ++ [g.minor]

/-- The status line up to its code. -/
def status : List UInt8 := g.version ++ octets " 200"

def statusLine : List UInt8 := g.status ++ g.reason.elim [] (32 :: ·)

/-- The lines in front of the blank one, each with its end. -/
def header : List UInt8 := (g.statusLine :: g.headers).flatMap (· ++ crlf)

/-- All that is in front of the page. -/
def head : List UInt8 := g.header ++ crlf

def bytes : List UInt8 := g.head ++ g.page

/-- What has come of the page with the first bytes of the answer. -/
def arrived (n : Nat) : List UInt8 := g.page.take (n - g.head.length)

/-- The code is not cut behind its first digit, and of the page nothing but blanks has come or
already the word. -/
def HarmlessCut (n : Nat) : Prop :=
  ¬ (9 < n ∧ n < 12) ∧
    (octets "Success" <:+: g.arrived n ∨ trim (decodeFrom 0 (g.arrived n)) = [])

theorem status_eq : g.status = [72, 84, 84, 80, 47, 49, 46, g.minor, 32, 50, 48, 48] := rfl

theorem ascii_status : Ascii g.status := by
  have low : g.minor ≤ 0x7F := UInt8.le_trans g.minor_digit.2 (by decide)
  simp [Ascii, status_eq, low]

def digit : Char := Char.ofNat g.minor.toNat

theorem digit_bounds : 48 ≤ g.digit.toNat ∧ g.digit.toNat ≤ 57 := by
  have bounds : 48 ≤ g.minor.toNat ∧ g.minor.toNat ≤ 57 := g.minor_digit
  rw [digit, toNat_ofNat (.inl (by omega))]
  exact bounds

theorem decode_status :
    decodeFrom 0 g.status = "HTTP/".toList ++ (['1', '.', g.digit] ++ ' ' :: ['2', '0', '0']) := by
  have low : g.minor ≤ 0x7F := UInt8.le_trans g.minor_digit.2 (by decide)
  have version : Ascii [72, 84, 84, 80, 47, 49, 46] :=
    fun b mem => g.ascii_status b (List.mem_append_left [g.minor, 32, 50, 48, 48] mem)
  have split : g.status = [72, 84, 84, 80, 47, 49, 46] ++ g.minor :: [32, 50, 48, 48] := rfl
  rw [split, decodeFrom_ascii_append version, decodeFrom_ascii_cons low]
  rfl

theorem bytes_eq : ∃ rest, g.bytes = g.status ++ rest ∧ (rest.head? = some 32 ∨ rest.head? = some 13) := by
  refine ⟨g.reason.elim [] (32 :: ·) ++ (crlf ++ (g.headers.flatMap (· ++ crlf) ++ (crlf ++ g.page))),
    ?_, ?_⟩
  · simp only [bytes, head, header, statusLine, List.flatMap_cons, List.append_assoc]
  · cases g.reason with
    | none => exact .inr rfl
    | some words => exact .inl rfl

/-- The text up to the code's end, as far as it has come. -/
theorem text_of_short {n : Nat} (short : n ≤ 12) :
    decodeFrom 0 (g.bytes.take n) =
      ("HTTP/".toList ++ (['1', '.', g.digit] ++ ' ' :: ['2', '0', '0'])).take n := by
  obtain ⟨rest, eq, _⟩ := g.bytes_eq
  have inside : n ≤ g.status.length := short
  rw [eq, List.take_append_of_le_length inside, decodeFrom_take g.ascii_status, decode_status]

theorem ends_of_long {n : Nat} (long : 12 ≤ n) :
    Ends ("HTTP/".toList ++ (['1', '.', g.digit] ++ ' ' :: ['2', '0', '0']))
      (decodeFrom 0 (g.bytes.take n)) := by
  obtain ⟨rest, eq, first⟩ := g.bytes_eq
  have cut : g.bytes.take n = g.status ++ rest.take (n - 12) := by
    rw [eq, List.take_append, List.take_of_length_le long]
    rfl
  refine ⟨decodeFrom 0 (rest.take (n - 12)), ?_, ?_⟩
  · rw [cut, decodeFrom_ascii_append g.ascii_status, decode_status]
  · intro c at_
    cases rest with
    | nil => simp at first
    | cons b rest =>
      cases more : n - 12 with
      | zero => simp [more, decodeFrom] at at_
      | succ m =>
        rw [more, List.take_succ_cons] at at_
        simp only [List.head?_cons, Option.some.injEq] at first
        rcases first with rfl | rfl
        · cases at_
          rfl
        · cases at_
          rfl

theorem not_whitespace_digit : isAsciiWhitespace g.digit = false :=
  isAsciiWhitespace_of_lt (Nat.lt_of_lt_of_le (by omega) g.digit_bounds.1)

theorem version_plain : ∀ d ∈ ['1', '.', g.digit], isAsciiWhitespace d = false := by
  intro d mem
  simp only [List.mem_cons, List.not_mem_nil, or_false] at mem
  obtain rfl | rfl | rfl := mem
  · rfl
  · rfl
  · exact g.not_whitespace_digit

theorem statusText_lineless :
    '\r' ∉ "HTTP/".toList ++ (['1', '.', g.digit] ++ ' ' :: ['2', '0', '0']) ∧
      '\n' ∉ "HTTP/".toList ++ (['1', '.', g.digit] ++ ' ' :: ['2', '0', '0']) := by
  have bounds := g.digit_bounds
  have noReturn : g.digit ≠ '\r' := by
    intro same
    rw [same] at bounds
    exact absurd bounds.1 (by decide)
  have noEnd : g.digit ≠ '\n' := by
    intro same
    rw [same] at bounds
    exact absurd bounds.1 (by decide)
  exact ⟨by simp [noReturn.symm], by simp [noEnd.symm]⟩

theorem statusLineOf_short {n : Nat} (short : n ≤ 12) :
    statusLineOf (decodeFrom 0 (g.bytes.take n)) =
      ("HTTP/".toList ++ (['1', '.', g.digit] ++ ' ' :: ['2', '0', '0'])).take n := by
  obtain ⟨noReturn, noEnd⟩ := g.statusText_lineless
  rw [g.text_of_short short]
  apply statusLineOf_plain
  · exact fun mem => noReturn (List.mem_of_mem_take mem)
  · exact fun mem => noEnd (List.mem_of_mem_take mem)

/-- Up to the blank in front of the code there is no status. -/
theorem parseStatus_versionless {n : Nat} (short : n ≤ 9) :
    parseStatus (statusLineOf (decodeFrom 0 (g.bytes.take n))) = none := by
  rw [g.statusLineOf_short (by omega)]
  by_cases last : n = 9
  · subst last
    exact parseStatus_of_version g.version_plain (List.cons_ne_nil _ _)
  · have front : ("HTTP/".toList ++ (['1', '.', g.digit] ++ ' ' :: ['2', '0', '0'])).take n =
        ("HTTP/".toList ++ ['1', '.', g.digit]).take n := by
      rw [← List.append_assoc, List.take_append_of_le_length]
      show n ≤ 8
      omega
    rw [front]
    apply parseStatus_of_plain
    intro d mem
    rcases List.mem_append.mp (List.mem_of_mem_take mem) with scheme | version
    · have plain : ∀ d ∈ "HTTP/".toList, isAsciiWhitespace d = false := by
        simp [isAsciiWhitespace]
      exact plain d scheme
    · exact g.version_plain d version

/-- A code cut behind its first digit is read as another one. -/
theorem parseStatus_cut {n : Nat} (behind : 9 < n) (short : n < 12) :
    parseStatus (statusLineOf (decodeFrom 0 (g.bytes.take n))) = some (if n = 10 then 2 else 20) := by
  have read : ∀ code : List Char, (∀ d ∈ code, isAsciiWhitespace d = false) → code ≠ [] →
      parseStatus ("HTTP/".toList ++ (['1', '.', g.digit] ++ ' ' :: code)) =
        parseUnsigned 65535 code := by
    intro code plain some_
    exact parseStatus_of_ends g.version_plain (List.cons_ne_nil _ _) plain some_
      ⟨[], (List.append_nil _).symm, by simp⟩
  rw [g.statusLineOf_short (by omega)]
  obtain rfl | rfl : n = 10 ∨ n = 11 := by omega
  · exact read ['2'] (by simp [isAsciiWhitespace]) (List.cons_ne_nil _ _)
  · exact read ['2', '0'] (by simp [isAsciiWhitespace]) (List.cons_ne_nil _ _)

theorem parseStatus_whole {n : Nat} (long : 12 ≤ n) :
    parseStatus (statusLineOf (decodeFrom 0 (g.bytes.take n))) = some 200 := by
  obtain ⟨noReturn, noEnd⟩ := g.statusText_lineless
  have ends := ((g.ends_of_long long).head noReturn).statusLine noReturn noEnd
  exact parseStatus_of_ends g.version_plain (List.cons_ne_nil _ _) (by simp [isAsciiWhitespace])
    (List.cons_ne_nil _ _) ends

end GenuineAnswer

theorem infix_behind {c : UInt8} {word a b : List UInt8} (absent : c ∉ a)
    (within : c :: word <:+: a ++ b) : c :: word <:+: b := by
  induction a with
  | nil => exact within
  | cons d a ih =>
    rw [List.cons_append, List.infix_cons_iff] at within
    rcases within with front | later
    · rw [List.cons_prefix_cons] at front
      exact absurd (front.1 ▸ List.mem_cons_self) absent
    · exact ih (fun mem => absent (List.mem_cons_of_mem d mem)) later

/-- No run of lines has a blank one in it, nor does its end begin one. -/
theorem blank_absent {rows : List (List UInt8)} (plain : ∀ row ∈ rows, row ≠ [] ∧ OneLine row) :
    ¬ crlf ++ crlf <:+: rows.flatMap (· ++ crlf) ++ [13] := by
  induction rows with
  | nil =>
    intro within
    have short := within.length_le
    simp [crlf] at short
  | cons row rows ih =>
    obtain ⟨_, noReturn, _⟩ := plain row List.mem_cons_self
    have others : ∀ row ∈ rows, row ≠ [] ∧ OneLine row :=
      fun row mem => plain row (List.mem_cons_of_mem _ mem)
    -- The line behind an end starts with a byte of its own, so a second end does not follow.
    have apart : ¬ crlf <+: rows.flatMap (· ++ crlf) ++ [13] := by
      intro front
      cases rows with
      | nil => simp [crlf] at front
      | cons next rows =>
        obtain ⟨some_, noReturn', _⟩ := others next List.mem_cons_self
        cases next with
        | nil => exact some_ rfl
        | cons b next =>
          simp only [crlf, List.flatMap_cons, List.cons_append, List.cons_prefix_cons] at front
          exact noReturn' (front.1 ▸ List.mem_cons_self)
    intro within
    rw [List.flatMap_cons, List.append_assoc, List.append_assoc] at within
    have behind := infix_behind (b := crlf ++ (rows.flatMap (· ++ crlf) ++ [13])) noReturn within
    rw [crlf, List.cons_append, List.infix_cons_iff] at behind
    rcases behind with front | later
    · apply apart
      simpa [crlf, List.cons_prefix_cons] using front
    · rw [List.singleton_append, List.infix_cons_iff] at later
      rcases later with front | later
      · simp at front
      · exact ih others later

namespace GenuineAnswer

variable (g : GenuineAnswer)

theorem rows_plain : ∀ row ∈ g.statusLine :: g.headers, row ≠ [] ∧ OneLine row := by
  have digit : g.minor ≠ 13 ∧ g.minor ≠ 10 := by
    constructor
    · intro same
      exact absurd (same ▸ g.minor_digit.1) (by decide)
    · intro same
      exact absurd (same ▸ g.minor_digit.1) (by decide)
  intro row mem
  rcases List.mem_cons.mp mem with rfl | mem
  · refine ⟨List.cons_ne_nil _ _, ?_⟩
    unfold OneLine statusLine
    rw [status_eq]
    cases found : g.reason with
    | none => simp [digit.1.symm, digit.2.symm]
    | some words =>
      have plain := g.reason_line words found
      simp [digit.1.symm, digit.2.symm, plain.1, plain.2]
  · exact g.headers_line row mem

theorem head_long : 12 ≤ g.head.length := by
  simp only [head, header, statusLine, status_eq, List.flatMap_cons, List.length_append,
    List.length_cons]
  omega

theorem header_break : ∃ front, g.header = front ++ crlf := by
  have split := List.dropLast_append_getLast (List.cons_ne_nil g.statusLine g.headers)
  rw [header, ← split, List.flatMap_append, List.flatMap_singleton, ← List.append_assoc]
  exact ⟨_, rfl⟩

/-- Of the text as far as it has come, the body is what has come of the page. -/
theorem body_eq (n : Nat) :
    (headAndBody (decodeFrom 0 (g.bytes.take n))).2 = decodeFrom 0 (g.arrived n) := by
  have ascii : Ascii (crlf ++ crlf) := by simp [Ascii, crlf]
  have ascii' : Ascii (crlf ++ [13]) := by simp [Ascii, crlf]
  have decoded : decodeFrom 0 (crlf ++ crlf) = blankLine := rfl
  have absent := blank_absent g.rows_plain
  obtain ⟨front, eq⟩ := g.header_break
  have headEq : g.head = (g.header ++ [13]) ++ [10] := by
    rw [head, List.append_assoc]
    rfl
  by_cases short : n < g.head.length
  · have none_ : ¬ blankLine <:+: decodeFrom 0 (g.bytes.take n) := by
      rw [← decoded, decode_infix_iff ascii]
      intro within
      apply absent
      have bound : n ≤ (g.header ++ [13]).length := by
        rw [headEq, List.length_append, List.length_singleton] at short
        omega
      rw [bytes, headEq, List.append_assoc, List.take_append_of_le_length bound] at within
      exact within.trans (List.take_prefix n _).isInfix
    have nothing : g.arrived n = [] := by
      rw [arrived, Nat.sub_eq_zero_of_le (Nat.le_of_lt short), List.take_zero]
    rw [headAndBody, splitOnceAt_absent none_, nothing]
    rfl
  · have whole : g.bytes.take n = front ++ ((crlf ++ crlf) ++ g.arrived n) := by
      rw [bytes, List.take_append, List.take_of_length_le (by omega), head, eq]
      simp [arrived, head, eq]
    have absent' : ¬ blankLine <:+: decodeFrom 0 front ++ blankLine.dropLast := by
      have unended : decodeFrom 0 front ++ blankLine.dropLast = decodeFrom 0 (g.header ++ [13]) := by
        rw [eq, List.append_assoc, ← List.append_nil (crlf ++ [13]),
          decodeFrom_around ascii' (List.cons_ne_nil _ _)]
        rfl
      rw [unended, ← decoded, decode_infix_iff ascii]
      exact absent
    have some_ : blankLine ≠ [] := List.cons_ne_nil _ _
    rw [whole, decodeFrom_around ascii (List.cons_ne_nil _ _), decoded, headAndBody,
      splitOnceAt_append some_ absent']

theorem success_arrived_iff (n : Nat) :
    contains "Success".toList (decodeFrom 0 (g.arrived n)) = true ↔
      octets "Success" <:+: g.arrived n := by
  have spelled : octets "Success" = [83, 117, 99, 99, 101, 115, 115] := rfl
  have ascii : Ascii (octets "Success") := by simp [Ascii, spelled]
  have decoded : decodeFrom 0 (octets "Success") = "Success".toList := rfl
  rw [contains_iff, ← decoded, decode_infix_iff ascii]

theorem fabricated_iff (n : Nat) :
    Fabricated (readResponse (g.bytes.take n)) ↔ ¬ g.HarmlessCut n := by
  unfold readResponse
  rw [fabricated_readText_iff, body_eq, success_arrived_iff]
  rcases Nat.lt_or_ge n 10 with early | late
  · have none_ := g.parseStatus_versionless (n := n) (by omega)
    have long := g.head_long
    have nothing : g.arrived n = [] := by
      rw [arrived, Nat.sub_eq_zero_of_le (by omega), List.take_zero]
    have harmless : g.HarmlessCut n := ⟨by omega, .inr (by rw [nothing]; rfl)⟩
    refine iff_of_false ?_ (not_not_intro harmless)
    rintro ⟨status, parsed, _⟩
    rw [none_] at parsed
    cases parsed
  · rcases Nat.lt_or_ge n 12 with cut | whole
    · have other := g.parseStatus_cut (n := n) (by omega) cut
      refine iff_of_true ⟨_, other, ?_⟩ fun harmless => harmless.1 ⟨by omega, cut⟩
      rintro ⟨ok, _⟩
      split at ok <;> omega
    · have ok := g.parseStatus_whole whole
      have uncut : ¬ (9 < n ∧ n < 12) := by omega
      rw [ok]
      constructor
      · rintro ⟨status, parsed, other⟩ harmless
        cases parsed
        exact other ⟨rfl, harmless.2⟩
      · intro harmful
        exact ⟨200, rfl, fun held => harmful ⟨uncut, held.2⟩⟩

/-- The whole answer reads as the genuine one. -/
theorem readResponse_bytes : readResponse g.bytes = .clean := by
  have all : g.bytes.take g.bytes.length = g.bytes := List.take_length
  have length_ : g.bytes.length = g.head.length + g.page.length := List.length_append
  have long := g.head_long
  have ok := g.parseStatus_whole (n := g.bytes.length) (by omega)
  have body := g.body_eq g.bytes.length
  have page : g.arrived g.bytes.length = g.page := by
    rw [arrived, List.take_of_length_le (by omega)]
  have held := (g.success_arrived_iff g.bytes.length).mpr (page ▸ g.page_success)
  rw [all] at ok body
  rw [← body] at held
  simp only [readResponse, readText, ok]
  rw [if_pos ⟨trivial, held⟩]

end GenuineAnswer

theorem attemptFields_portal_iff {bytes : List UInt8} :
    (attemptFields readResponse (.ok bytes)).verdict = .portal ↔ Fabricated (readResponse bytes) := by
  unfold attemptFields Fabricated
  simp only
  split
  next clean => simp [clean]
  next intercepted => simp [intercepted]
  next unreadable => simp [unreadable]

/-- A genuine answer that breaks off is read as the page or as no reading, and never as a portal's,
exactly where the cut is harmless. -/
theorem cut_answers_fabricate_iff (g : GenuineAnswer) (n : Nat) :
    ((readResponse (g.bytes.take n) = .clean ∨
        ∃ reason, readResponse (g.bytes.take n) = .unreadable reason) ↔ g.HarmlessCut n) ∧
      ((attemptFields readResponse (.ok (g.bytes.take n))).verdict ≠ .portal ↔ g.HarmlessCut n) := by
  have exact_ := g.fabricated_iff n
  constructor
  · rw [← not_not (a := g.HarmlessCut n), ← exact_]
    cases readResponse (g.bytes.take n) with
    | clean => simp [Fabricated]
    | intercepted url shape => simp [Fabricated]
    | unreadable reason => simp [Fabricated]
  · rw [ne_eq, attemptFields_portal_iff, exact_, not_not]

/-- Apple's page, as short as it gets. -/
def shortAnswer : GenuineAnswer where
  minor := 48
  reason := some (octets "OK")
  headers := []
  page := octets "<HTML>Success"
  minor_digit := by decide
  reason_line := by
    rintro words ⟨⟩
    exact ⟨by decide, by decide⟩
  headers_line := by simp
  page_success := ⟨octets "<HTML>", [], rfl⟩

/-- Cut in front of the word, or within its code, it is a portal's. -/
theorem cut_page_fabricates :
    readResponse (shortAnswer.bytes.take 25) = .intercepted none "HTTP 200 without Success" ∧
      (attemptFields readResponse (.ok (shortAnswer.bytes.take 25))).verdict = .portal ∧
      readResponse (shortAnswer.bytes.take 10) = .intercepted none "HTTP 2 without Success" :=
  ⟨rfl, rfl, rfl⟩

end PortalAnswer
end NetObserver
