import NetObserver.ByteOrder
import NetObserver.Frame

/-! The reader of a DNS answer: names skipped without following their pointers, then the records up
to the first IPv4 address. -/

namespace NetObserver
namespace DnsAnswer

open ByteOrder

/-- What a reading comes to: an error in words, or nothing at all where an index is out of range. -/
abbrev Reading := ExceptT String Option

def index (packet : List UInt8) (i : Nat) : Reading UInt8 := ExceptT.lift packet[i]?

def u16At (packet : List UInt8) (i : Nat) : Reading Nat := do
  let high ← index packet i
  let low ← index packet (i + 1)
  return beNat [high, low]

def addressAt (packet : List UInt8) (i : Nat) : Reading Ipv4Addr := do
  return #v[← index packet i, ← index packet (i + 1), ← index packet (i + 2),
    ← index packet (i + 3)]

/-- The two bytes of a compression pointer begin with both its bits. -/
def isPointer (len : UInt8) : Bool := len &&& 0xC0 == 0xC0

/-- The offset just past a name. -/
def skipName (packet : List UInt8) (pos : Nat) : Except String Nat :=
  if inside : pos < packet.length then
    let len := packet[pos]
    if len = 0 then .ok (pos + 1)
    else if isPointer len then
      if pos + 2 ≤ packet.length then .ok (pos + 2) else .error "pointer runs past the packet"
    else skipName packet (pos + (1 + len.toNat))
  else .error "name runs past the packet"
termination_by packet.length - pos

def skipQuestions (packet : List UInt8) : Nat → Nat → Reading Nat
  | 0, pos => return pos
  | count + 1, pos => do
    let pos ← skipName packet pos
    if pos + 4 ≤ packet.length then skipQuestions packet count (pos + 4)
    else throw "question section truncated"

def readAnswers (packet : List UInt8) : Nat → Nat → Reading Ipv4Addr
  | 0, _ => throw "no A record in the answer"
  | count + 1, pos => do
    let pos ← skipName packet pos
    if packet.length < pos + 10 then throw "answer record truncated"
    else
      let rtype ← u16At packet pos
      let rclass ← u16At packet (pos + 2)
      let rdlen ← u16At packet (pos + 8)
      let pos := pos + 10
      if packet.length < pos + rdlen then throw "answer rdata truncated"
      else if rtype = 1 ∧ rclass = 1 ∧ rdlen = 4 then addressAt packet pos
      -- A CNAME or anything else is skipped; the address usually follows it.
      else readAnswers packet count (pos + rdlen)

def firstAAnswer (packet : List UInt8) (id : UInt16) : Reading Ipv4Addr := do
  if packet.length < 12 then throw "DNS answer shorter than its header"
  else if [← index packet 0, ← index packet 1] ≠ beBytes 2 id.toNat then
    throw "DNS answer id mismatch"
  else if (← index packet 2) &&& 0x80 = 0 then throw "DNS packet is not a response"
  else
    let rcode := (← index packet 3) &&& 0x0F
    if rcode ≠ 0 then throw ("DNS rcode " ++ toString rcode)
    else
      let qdcount ← u16At packet 4
      let ancount ← u16At packet 6
      let pos ← skipQuestions packet qdcount 12
      readAnswers packet ancount pos

section Reading

variable {α β : Type} {packet : List UInt8} {i : Nat}

def Returns (r : Reading α) : Prop := ∃ outcome, r.run = some outcome

theorem bind_eq_pure {x : Reading α} {f : α → Reading β} {b : β} :
    x >>= f = pure b ↔ ∃ a, x = pure a ∧ f a = pure b := by
  constructor
  · intro eq
    match x with
    | none => cases eq
    | some (.error e) => cases eq
    | some (.ok a) => exact ⟨a, rfl, eq⟩
  · rintro ⟨a, rfl, eq⟩
    exact eq

/-- What holds of the parts of a reading holds of the whole. -/
theorem bind_carries {x y : Reading α} {f g : α → Reading β} {b : β} (read : x >>= f = pure b)
    (first : ∀ a, x = pure a → y = pure a) (rest : ∀ a, f a = pure b → g a = pure b) :
    y >>= g = pure b := by
  obtain ⟨a, got, read⟩ := bind_eq_pure.mp read
  exact bind_eq_pure.mpr ⟨a, first a got, rest a read⟩

theorem Returns.bind {x : Reading α} {f : α → Reading β} (first : Returns x)
    (then_ : ∀ a, x = pure a → Returns (f a)) : Returns (x >>= f) := by
  match x, first with
  | some (.error e), _ => exact ⟨.error e, rfl⟩
  | some (.ok a), _ => exact then_ a rfl

theorem returns_throw (e : String) : Returns (throw e : Reading α) := ⟨.error e, rfl⟩

theorem returns_pure (a : α) : Returns (pure a : Reading α) := ⟨.ok a, rfl⟩

theorem returns_lift (e : Except String α) : Returns (liftM e : Reading α) := ⟨e, rfl⟩

theorem lift_eq_pure {e : Except String α} {a : α} :
    (liftM e : Reading α) = pure a ↔ e = .ok a := by
  constructor
  · intro eq
    exact Option.some.inj eq
  · rintro rfl
    rfl

theorem throw_ne_pure {e : String} {a : α} : (throw e : Reading α) ≠ pure a := by
  intro eq
  cases eq

theorem index_eq_pure {b : UInt8} : index packet i = pure b ↔ packet[i]? = some b := by
  unfold index
  cases packet[i]? with
  | none =>
    constructor
    · intro eq
      cases eq
    · intro eq
      cases eq
  | some c =>
    constructor
    · intro eq
      cases eq
      rfl
    · rintro ⟨⟩
      rfl

theorem returns_index (inside : i < packet.length) : Returns (index packet i) := by
  have read : index packet i = pure packet[i] :=
    index_eq_pure.mpr (List.getElem?_eq_getElem inside)
  rw [read]
  exact returns_pure _

theorem returns_u16At (inside : i + 1 < packet.length) : Returns (u16At packet i) := by
  apply (returns_index (by omega)).bind
  intro high _
  apply (returns_index inside).bind
  intro low _
  exact returns_pure _

theorem returns_addressAt (inside : i + 3 < packet.length) : Returns (addressAt packet i) := by
  apply (returns_index (by omega)).bind
  intro a _
  apply (returns_index (by omega)).bind
  intro b _
  apply (returns_index (by omega)).bind
  intro c _
  apply (returns_index inside).bind
  intro d _
  exact returns_pure _

end Reading

theorem returns_skipQuestions (packet : List UInt8) (count pos : Nat) :
    Returns (skipQuestions packet count pos) := by
  induction count generalizing pos with
  | zero => exact returns_pure pos
  | succ count ih =>
    apply (returns_lift _).bind
    intro pos _
    split
    next => exact ih _
    next => exact returns_throw _

theorem returns_readAnswers (packet : List UInt8) (count pos : Nat) :
    Returns (readAnswers packet count pos) := by
  induction count generalizing pos with
  | zero => exact returns_throw _
  | succ count ih =>
    apply (returns_lift _).bind
    intro pos _
    split
    next => exact returns_throw _
    next header =>
      apply (returns_u16At (by omega)).bind
      intro rtype _
      apply (returns_u16At (by omega)).bind
      intro rclass _
      apply (returns_u16At (by omega)).bind
      intro rdlen _
      dsimp only
      split
      next => exact returns_throw _
      next data =>
        split
        next address =>
          obtain ⟨_, _, four⟩ := address
          exact returns_addressAt (by omega)
        next => exact ih _

/-- No index is out of range, whatever the bytes. -/
theorem returns_firstAAnswer (packet : List UInt8) (id : UInt16) :
    Returns (firstAAnswer packet id) := by
  unfold firstAAnswer
  split
  next => exact returns_throw _
  next long =>
    apply (returns_index (by omega)).bind
    intro a _
    apply (returns_index (by omega)).bind
    intro b _
    split
    next => exact returns_throw _
    next =>
      apply (returns_index (by omega)).bind
      intro c _
      split
      next => exact returns_throw _
      next =>
        apply (returns_index (by omega)).bind
        intro d _
        dsimp only
        split
        next => exact returns_throw _
        next =>
          apply (returns_u16At (by omega)).bind
          intro qdcount _
          apply (returns_u16At (by omega)).bind
          intro ancount _
          apply (returns_skipQuestions packet qdcount 12).bind
          intro pos _
          exact returns_readAnswers packet ancount pos

section Prefix

variable {p q : List UInt8} {i pos count stop : Nat}

include p q

theorem index_front (front : p <+: q) {b : UInt8} (read : index p i = pure b) :
    index q i = pure b := by
  obtain ⟨rest, rfl⟩ := front
  rw [index_eq_pure] at read ⊢
  obtain ⟨inside, _⟩ := List.getElem?_eq_some_iff.mp read
  rw [List.getElem?_append_left inside]
  exact read

theorem u16At_front (front : p <+: q) {v : Nat} (read : u16At p i = pure v) :
    u16At q i = pure v := by
  apply bind_carries read fun _ => index_front front
  intro high read
  apply bind_carries read fun _ => index_front front
  intro low read
  exact read

theorem addressAt_front (front : p <+: q) {address : Ipv4Addr}
    (read : addressAt p i = pure address) : addressAt q i = pure address := by
  apply bind_carries read fun _ => index_front front
  intro a read
  apply bind_carries read fun _ => index_front front
  intro b read
  apply bind_carries read fun _ => index_front front
  intro c read
  apply bind_carries read fun _ => index_front front
  intro d read
  exact read

/-- What is skipped of a cut packet is skipped of the whole one. -/
theorem skipName_front (front : p <+: q) (read : skipName p pos = .ok stop) :
    skipName q pos = .ok stop := by
  have long := front.length_le
  fun_induction skipName p pos with
  | case1 pos inside len root =>
    have longer : pos < q.length := by omega
    have same : q[pos] = p[pos] := (front.getElem inside).symm
    rw [skipName, dif_pos longer, same, if_pos root]
    exact read
  | case2 pos inside len more pointer fits =>
    have longer : pos < q.length := by omega
    have same : q[pos] = p[pos] := (front.getElem inside).symm
    rw [skipName, dif_pos longer, same, if_neg more, if_pos pointer, if_pos (by omega)]
    exact read
  | case3 => cases read
  | case4 pos inside len more label ih =>
    have longer : pos < q.length := by omega
    have same : q[pos] = p[pos] := (front.getElem inside).symm
    rw [skipName, dif_pos longer, same, if_neg more, if_neg label]
    exact ih read
  | case5 => cases read

theorem skipQuestions_front (front : p <+: q) (read : skipQuestions p count pos = pure stop) :
    skipQuestions q count pos = pure stop := by
  have long := front.length_le
  induction count generalizing pos with
  | zero => exact read
  | succ count ih =>
    apply bind_carries read fun _ name =>
      lift_eq_pure.mpr (skipName_front front (lift_eq_pure.mp name))
    intro behind read
    split at read
    next inside =>
      rw [if_pos (by omega)]
      exact ih read
    next => exact absurd read throw_ne_pure

theorem readAnswers_front (front : p <+: q) {a : Ipv4Addr}
    (read : readAnswers p count pos = pure a) : readAnswers q count pos = pure a := by
  have long := front.length_le
  induction count generalizing pos with
  | zero => exact absurd read throw_ne_pure
  | succ count ih =>
    apply bind_carries read fun _ name =>
      lift_eq_pure.mpr (skipName_front front (lift_eq_pure.mp name))
    intro behind read
    split at read
    next => exact absurd read throw_ne_pure
    next header =>
      rw [if_neg (by omega)]
      apply bind_carries read fun _ => u16At_front front
      intro rtype read
      apply bind_carries read fun _ => u16At_front front
      intro rclass read
      apply bind_carries read fun _ => u16At_front front
      intro rdlen read
      dsimp only at read ⊢
      by_cases cut : p.length < behind + 10 + rdlen
      · rw [if_pos cut] at read
        exact absurd read throw_ne_pure
      · rw [if_neg cut] at read
        rw [if_neg (by omega)]
        split at read
        next address =>
          rw [if_pos address]
          exact addressAt_front front read
        next other =>
          rw [if_neg other]
          exact ih read

/-- An address read of a cut packet is the one read of the whole packet. -/
theorem firstAAnswer_front (front : p <+: q) {id : UInt16} {address : Ipv4Addr}
    (read : firstAAnswer p id = pure address) : firstAAnswer q id = pure address := by
  have long := front.length_le
  unfold firstAAnswer at read ⊢
  split at read
  next => exact absurd read throw_ne_pure
  next header =>
    rw [if_neg (by omega)]
    apply bind_carries read fun _ => index_front front
    intro a read
    apply bind_carries read fun _ => index_front front
    intro b read
    split at read
    next => exact absurd read throw_ne_pure
    next own =>
      rw [if_neg own]
      apply bind_carries read fun _ => index_front front
      intro c read
      split at read
      next => exact absurd read throw_ne_pure
      next response =>
        rw [if_neg response]
        apply bind_carries read fun _ => index_front front
        intro d read
        dsimp only at read ⊢
        split at read
        next => exact absurd read throw_ne_pure
        next clean =>
          rw [if_neg clean]
          apply bind_carries read fun _ => u16At_front front
          intro qdcount read
          apply bind_carries read fun _ => u16At_front front
          intro ancount read
          apply bind_carries read fun _ => skipQuestions_front front
          intro pos read
          exact readAnswers_front front read

end Prefix

end DnsAnswer
end NetObserver
