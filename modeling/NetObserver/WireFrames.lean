import NetObserver.PcapStream
import NetObserver.PieceReader
import NetObserver.SocketServer

/-! The frames of the socket as bytes: a line of JSON each, read back from whatever pieces the
kernel delivers, by a client that may not know all the frames its daemon sends. -/

namespace NetObserver

open PieceReader

def lineEnd : UInt8 := 10

def maxRequestBytes : Nat := 64 * 1024

inductive JsonCategory where
  | io
  | malformed
  | data
  | eof

structure JsonError where
  category : JsonCategory
  message : String

/-- The encoder of one build and the decoder of another, as far as frames rely on them. A value
is one line of JSON text; cut short it stops the decoder at its end, unless the decoder found an
unknown name in it before. `reads` is what the decoding build makes of a value of the encoding
one: a value of its own, or what it does not know in it. -/
structure Serde (Sent Read : Type) where
  toVec : Sent → List UInt8
  fromStr : String → Except JsonError Read
  reads : Sent → Except String Read
  oneLine : ∀ v, lineEnd ∉ toVec v
  text : ∀ v ends, ends = [] ∨ ends = [lineEnd] →
    ∃ line, String.fromUTF8? ⟨(toVec v ++ ends).toArray⟩ = some line ∧
      fromStr line = (reads v).mapError fun detail => ⟨.data, detail⟩
  cutShort : ∀ v read, reads v = .ok read → ∀ front, front <+: toVec v → front ≠ toVec v →
    ∀ line, String.fromUTF8? ⟨front.toArray⟩ = some line →
      ∃ message, fromStr line = .error ⟨.eof, message⟩

/-- What a client makes of one frame: a frame it knows, or one it can only count and name. -/
inductive Received where
  | frame (f : StreamFrame)
  | unrecognized (tsUs : Int) (detail : String)

def encodeFrame {Sent Read : Type} (json : Serde Sent Read) (v : Sent) : List UInt8 :=
  json.toVec v ++ [lineEnd]

namespace WireFrames

/-- `read_line`: the bytes up to the newline or the end, as text. -/
def readLine (r : BufReader UInt8) : Except IoError String × BufReader UInt8 :=
  let taken := readUntil lineEnd r.pieces r.buffer
  if taken.1 = [] then
    (.error ⟨.unexpectedEof, "connection closed before a full frame was read"⟩, taken.2)
  else
    match String.fromUTF8? ⟨taken.1.toArray⟩ with
    | some line => (.ok line, taken.2)
    | none => (.error ⟨.invalidData, "stream did not contain valid UTF-8"⟩, taken.2)

def decodeStreamFrame {Sent : Type} (json : Serde Sent StreamFrame) (nowUs : Int) (line : String) :
    Except IoError Received :=
  match json.fromStr line with
  | .ok frame => .ok (.frame frame)
  | .error ⟨.data, message⟩ => .ok (.unrecognized nowUs message)
  | .error e => .error ⟨.invalidData, e.message⟩

def readStreamFrame {Sent : Type} (json : Serde Sent StreamFrame) (nowUs : Int) (r : BufReader UInt8) :
    Except IoError Received × BufReader UInt8 :=
  match readLine r with
  | (.ok line, r) => (decodeStreamFrame json nowUs line, r)
  | (.error e, r) => (.error e, r)

/-- `Subscription::next`: a clean close ends the stream, any other failure is an item of it. -/
def next {Sent : Type} (json : Serde Sent StreamFrame) (nowUs : Int) (r : BufReader UInt8) :
    Option (Except IoError Received) × BufReader UInt8 :=
  match readStreamFrame json nowUs r with
  | (.ok received, r) => (some (.ok received), r)
  | (.error e, r) => if e.kind = .unexpectedEof then (none, r) else (some (.error e), r)

/-- The items of a stream, one asked for at each instant until it ends. -/
def items {Sent : Type} (json : Serde Sent StreamFrame) : List Int → BufReader UInt8 →
    List (Except IoError Received)
  | [], _ => []
  | nowUs :: later, r =>
    match next json nowUs r with
    | (none, _) => []
    | (some item, r) => item :: items json later r

/-- `read_frame` of a one-shot request or response. -/
def readFrame {Sent Read : Type} (json : Serde Sent Read) (r : BufReader UInt8) :
    Except IoError Read :=
  match (readLine r).1 with
  | .ok line => (json.fromStr line).mapError fun e => ⟨.invalidData, e.message⟩
  | .error e => .error e

/-- What a frame the daemon sent is for its client. -/
def received {Sent : Type} (json : Serde Sent StreamFrame) (nowUs : Int) (v : Sent) :
    Except IoError Received :=
  match json.reads v with
  | .ok frame => .ok (.frame frame)
  | .error detail => .ok (.unrecognized nowUs detail)

section Client

variable {Sent Read : Type} {r : BufReader UInt8}

theorem readLine_line {s ys : List UInt8} {line : String} (free : lineEnd ∉ s)
    (stream : r.remaining = s ++ lineEnd :: ys)
    (text : String.fromUTF8? ⟨(s ++ [lineEnd]).toArray⟩ = some line) :
    ∃ r', readLine r = (.ok line, r') ∧ r'.remaining = ys := by
  obtain ⟨taken, left⟩ := readUntil_line free stream
  refine ⟨(readUntil lineEnd r.pieces r.buffer).2, ?_, left⟩
  have some : s ++ [lineEnd] ≠ [] := by simp
  simp only [readLine, taken, if_neg some, text]

theorem readLine_frame (json : Serde Sent Read) {v : Sent} {ys : List UInt8}
    (stream : r.remaining = encodeFrame json v ++ ys) :
    ∃ line r', readLine r = (.ok line, r') ∧ r'.remaining = ys ∧
      json.fromStr line = (json.reads v).mapError fun detail => ⟨.data, detail⟩ := by
  obtain ⟨line, text, decoded⟩ := json.text v [lineEnd] (.inr rfl)
  have whole : r.remaining = json.toVec v ++ lineEnd :: ys := by
    rw [stream, encodeFrame, List.append_assoc, List.singleton_append]
  obtain ⟨r', read, left⟩ := readLine_line (json.oneLine v) whole text
  exact ⟨line, r', read, left, decoded⟩

/-- Behind the last newline the rest is read as it is, and then the stream ends. -/
theorem readLine_rest {s : List UInt8} (free : lineEnd ∉ s) (stream : r.remaining = s) :
    readLine r =
      (if s = [] then
        .error ⟨.unexpectedEof, "connection closed before a full frame was read"⟩
      else
        match String.fromUTF8? ⟨s.toArray⟩ with
        | some line => .ok line
        | none => .error ⟨.invalidData, "stream did not contain valid UTF-8"⟩, ⟨[], []⟩) := by
  have all : readUntil lineEnd r.pieces r.buffer = (s, ⟨[], []⟩) := by
    rw [← stream] at free ⊢
    exact readUntil_end free
  simp only [readLine, all]
  by_cases none : s = []
  · simp only [if_pos none]
  · simp only [if_neg none]
    split
    next => rfl
    next => rfl

/-- A line is an item of the stream, whatever is made of it. -/
theorem next_line (json : Serde Sent StreamFrame) {line : String} {r' : BufReader UInt8}
    (nowUs : Int) (read : readLine r = (.ok line, r')) :
    next json nowUs r = (some (decodeStreamFrame json nowUs line), r') := by
  rw [next, readStreamFrame, read]
  cases decoded : decodeStreamFrame json nowUs line with
  | ok received => simp only [decoded]
  | error e =>
    have kind : e.kind = .invalidData := by
      unfold decodeStreamFrame at decoded
      split at decoded <;> cases decoded
      rfl
    simp only [decoded, kind, reduceCtorEq, if_false]

theorem decodeStreamFrame_reads (json : Serde Sent StreamFrame) {v : Sent} {line : String}
    (nowUs : Int)
    (text : json.fromStr line = (json.reads v).mapError fun detail => ⟨.data, detail⟩) :
    decodeStreamFrame json nowUs line = received json nowUs v := by
  rw [decodeStreamFrame, text, received]
  cases json.reads v with
  | ok frame => rfl
  | error detail => rfl

theorem next_frame (json : Serde Sent StreamFrame) {v : Sent} {ys : List UInt8} (nowUs : Int)
    (stream : r.remaining = encodeFrame json v ++ ys) :
    ∃ r', next json nowUs r = (some (received json nowUs v), r') ∧ r'.remaining = ys := by
  obtain ⟨line, r', read, left, text⟩ := readLine_frame json stream
  refine ⟨r', ?_, left⟩
  rw [next_line json nowUs read, decodeStreamFrame_reads json nowUs text]

theorem next_end (json : Serde Sent StreamFrame) (nowUs : Int) (ended : r.remaining = []) :
    (next json nowUs r).1 = none := by
  have read := readLine_rest (List.not_mem_nil) ended
  rw [if_pos rfl] at read
  simp only [next, readStreamFrame, read, if_true]

/-- Frames written whole arrive one by one, as many as are asked for. -/
theorem items_frames (json : Serde Sent StreamFrame) {sent : List Sent} {rest : List UInt8}
    {first later : List Int} (instants : first.length = sent.length)
    (stream : r.remaining = sent.flatMap (encodeFrame json) ++ rest) :
    ∃ r', items json (first ++ later) r =
      List.zipWith (received json) first sent ++ items json later r' ∧ r'.remaining = rest := by
  induction sent generalizing first r with
  | nil =>
    cases List.length_eq_zero_iff.mp instants
    exact ⟨r, rfl, stream⟩
  | cons v sent ih =>
    cases first with
    | nil => cases instants
    | cons nowUs first =>
      rw [List.flatMap_cons, List.append_assoc] at stream
      obtain ⟨r', item, left⟩ := next_frame json nowUs stream
      obtain ⟨r'', others, behind⟩ := ih (Nat.succ.inj instants) left
      refine ⟨r'', ?_, behind⟩
      rw [List.cons_append, items, item]
      show received json nowUs v :: items json (first ++ later) r' = _
      rw [others]
      rfl

/-- What a client makes of a frame of which only the front was written. -/
def CutShort (json : Serde Sent StreamFrame) (nowUs : Int) (v : Sent) (front : List UInt8)
    (item : Except IoError Received) : Prop :=
  (front = json.toVec v → item = received json nowUs v) ∧
    (front ≠ json.toVec v → ∀ frame, json.reads v = .ok frame →
      ∃ message, item = .error ⟨.invalidData, message⟩)

theorem next_cutShort (json : Serde Sent StreamFrame) {v : Sent} {front : List UInt8}
    (nowUs : Int) (some : front ≠ []) (cut : front <+: json.toVec v) (stream : r.remaining = front) :
    ∃ item, next json nowUs r = (.some item, ⟨[], []⟩) ∧ CutShort json nowUs v front item := by
  have free : lineEnd ∉ front := fun mem => json.oneLine v (cut.subset mem)
  have read := readLine_rest free stream
  rw [if_neg some] at read
  by_cases whole : front = json.toVec v
  · obtain ⟨line, text, decoded⟩ := json.text v [] (.inl rfl)
    rw [List.append_nil, ← whole] at text
    simp only [text] at read
    refine ⟨_, next_line json nowUs read, fun _ => ?_, fun short => absurd whole short⟩
    exact decodeStreamFrame_reads json nowUs decoded
  · cases text : String.fromUTF8? ⟨front.toArray⟩ with
    | none =>
      simp only [text] at read
      refine ⟨.error ⟨.invalidData, "stream did not contain valid UTF-8"⟩, ?_,
        fun same => absurd same whole, fun _ _ _ => ⟨_, rfl⟩⟩
      simp only [next, readStreamFrame, read, reduceCtorEq, if_false]
    | some line =>
      simp only [text] at read
      refine ⟨_, next_line json nowUs read, fun same => absurd same whole, fun _ frame reads => ?_⟩
      obtain ⟨message, failed⟩ := json.cutShort v frame reads front cut whole line text
      exact ⟨message, by rw [decodeStreamFrame, failed]⟩

/-- What the client of a stream is given, however the kernel cuts it into pieces: every frame
written whole, as itself or as one frame it cannot name; then the end, or, where the daemon died
in the middle of a frame, first one item for it, a failure if the client knows such frames. -/
theorem stream_read_back (json : Serde Sent StreamFrame) {sent : List Sent} {v : Sent}
    {front : List UInt8} {pieces : List (Piece UInt8)} {first later : List Int}
    (cut : front <+: json.toVec v)
    (stream : content pieces = sent.flatMap (encodeFrame json) ++ front)
    (instants : first.length = sent.length) (asked : 2 ≤ later.length) :
    ∃ last, items json (first ++ later) ⟨[], pieces⟩ =
        List.zipWith (received json) first sent ++ last ∧
      (front = [] → last = []) ∧
      (front ≠ [] → ∃ nowUs item, last = [item] ∧ CutShort json nowUs v front item) := by
  obtain ⟨r', whole, rest⟩ : ∃ r', items json (first ++ later) ⟨[], pieces⟩ =
      List.zipWith (received json) first sent ++ items json later r' ∧ r'.remaining = front :=
    items_frames json instants stream
  refine ⟨items json later r', whole, fun none => ?_, fun some => ?_⟩
  · cases later with
    | nil => rfl
    | cons nowUs later =>
      have ended := next_end json nowUs (rest.trans none)
      rw [items]
      split
      next => rfl
      next item r'' more =>
        rw [more] at ended
        cases ended
  · match later, asked with
    | nowUs :: nowUs' :: later, _ =>
      obtain ⟨item, given, cutShort⟩ := next_cutShort json nowUs some cut rest
      refine ⟨nowUs, item, ?_, cutShort⟩
      have ended := next_end json nowUs' (r := ⟨[], []⟩) rfl
      rw [items, given]
      show item :: items json (nowUs' :: later) ⟨[], []⟩ = [item]
      rw [items]
      split
      next => rfl
      next item' r'' more =>
        rw [more] at ended
        cases ended

end Client

section Daemon

variable {Sent Req : Type}

/-- Whatever a client sends, no more than the bound of it is kept. -/
theorem readUntil_limit_length (pieces : List (Piece UInt8)) :
    (readUntil lineEnd (limit maxRequestBytes pieces) []).1.length ≤ maxRequestBytes := by
  have bound : (content (limit maxRequestBytes pieces)).length ≤ maxRequestBytes := by
    rw [content_limit]
    exact List.length_take_le _ _
  by_cases line : lineEnd ∈ content (limit maxRequestBytes pieces)
  · obtain ⟨s, ys, split, free⟩ := List.eq_append_cons_of_mem line
    rw [(readUntil_line free (by rw [List.nil_append, split])).1]
    rw [split, List.length_append, List.length_cons] at bound
    rw [List.length_append, List.length_singleton]
    omega
  · rw [readUntil_end (by rw [List.nil_append]; exact line), List.nil_append]
    exact bound

end Daemon

theorem fromUTF8?_eq_some {b : ByteArray} {s : String} (text : String.fromUTF8? b = some s) :
    s.toByteArray = b := by
  unfold String.fromUTF8? at text
  split at text
  · cases text
    rfl
  · cases text

/-- The coding of one value alone, by its bytes and the text they are. -/
def alone {Read : Type} (bytes : List UInt8) (text : String) (read : Read)
    (free : lineEnd ∉ bytes) (whole : String.fromUTF8? ⟨bytes.toArray⟩ = some text)
    (line : String.fromUTF8? ⟨(bytes ++ [lineEnd]).toArray⟩ = some (text ++ "\n")) :
    Serde Unit Read where
  toVec _ := bytes
  fromStr found :=
    if found = text ∨ found = text ++ "\n" then .ok read
    else .error ⟨.eof, "EOF while parsing a value"⟩
  reads _ := .ok read
  oneLine _ := free
  text _ ends tail := by
    rcases tail with rfl | rfl
    · exact ⟨text, by rw [List.append_nil, whole], if_pos (.inl rfl)⟩
    · exact ⟨_, line, if_pos (.inr rfl)⟩
  cutShort _ _ _ front cut short found decoded := by
    refine ⟨_, if_neg ?_⟩
    have bytesOf := fromUTF8?_eq_some decoded
    intro same
    rcases same with rfl | rfl
    · have all := (fromUTF8?_eq_some whole).symm.trans bytesOf
      exact short (List.toArray_inj (ByteArray.mk.inj all)).symm
    · have all := (fromUTF8?_eq_some line).symm.trans bytesOf
      have longer := congrArg List.length (List.toArray_inj (ByteArray.mk.inj all))
      have shorter := cut.length_le
      rw [List.length_append, List.length_singleton] at longer
      omega

/-- `{"Gap":{"ts_us":3,"skipped":9}}` -/
def gapBytes : List UInt8 :=
  [0x7b, 0x22, 0x47, 0x61, 0x70, 0x22, 0x3a, 0x7b, 0x22, 0x74, 0x73, 0x5f, 0x75, 0x73, 0x22, 0x3a,
    0x33, 0x2c, 0x22, 0x73, 0x6b, 0x69, 0x70, 0x70, 0x65, 0x64, 0x22, 0x3a, 0x39, 0x7d, 0x7d]

def gapAlone : Serde Unit StreamFrame :=
  alone gapBytes "\x7b\"Gap\":\x7b\"ts_us\":3,\"skipped\":9\x7d\x7d" (.gap ⟨3, 9⟩)
    (by decide) (by decide)
    (by decide)

/-- A gap in two pieces, and the daemon gone behind the first byte of another. -/
def cutGap : List (Piece UInt8) :=
  [⟨gapBytes.take 3, by decide⟩, ⟨gapBytes.drop 3 ++ [lineEnd, 0x7b], by decide⟩]

theorem stream_read_back_cutGap :
    ∃ message, items gapAlone [7, 8, 9] ⟨[], cutGap⟩ =
      [.ok (.frame (.gap ⟨3, 9⟩)), .error ⟨.invalidData, message⟩] := by
  obtain ⟨last, given, _, cut⟩ := @stream_read_back _ gapAlone [()] () [0x7b] cutGap [7] [8, 9]
    ⟨gapBytes.drop 1, rfl⟩ rfl rfl (Nat.le_refl 2)
  obtain ⟨nowUs, item, rfl, _, failed⟩ := cut (by decide)
  obtain ⟨message, rfl⟩ := failed (by decide) _ rfl
  exact ⟨message, given⟩

end WireFrames

end NetObserver
