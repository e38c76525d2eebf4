import NetObserver.DnsAnswer

/-! The grammar of a DNS response, and what the reader reads off it, whole or cut. -/

namespace NetObserver
namespace DnsAnswer

open ByteOrder

/-- How a name ends: at the root, or with a pointer to where the rest of it stands. -/
inductive NameEnd where
  | root
  | pointer (high low : UInt8) (both : isPointer high = true)

def NameEnd.bytes : NameEnd → List UInt8
  | root => [0]
  | pointer high low _ => [high, low]

def labelBytes (label : List UInt8) : List UInt8 := UInt8.ofNat label.length :: label

structure DnsName where
  labels : List (List UInt8)
  ending : NameEnd
  labels_fit : ∀ label ∈ labels, label ≠ [] ∧ label.length ≤ 63

def DnsName.bytes (n : DnsName) : List UInt8 := n.labels.flatMap labelBytes ++ n.ending.bytes

structure DnsQuestion where
  name : DnsName
  qtype : UInt16
  qclass : UInt16

def DnsQuestion.bytes (q : DnsQuestion) : List UInt8 :=
  q.name.bytes ++ (beBytes 2 q.qtype.toNat ++ beBytes 2 q.qclass.toNat)

structure DnsRecord where
  name : DnsName
  rtype : UInt16
  rclass : UInt16
  ttl : UInt32
  rdata : List UInt8
  rdata_fits : rdata.length < 65536

namespace DnsRecord

def bytes (r : DnsRecord) : List UInt8 :=
  r.name.bytes ++ (beBytes 2 r.rtype.toNat ++ (beBytes 2 r.rclass.toNat ++
    (beBytes 4 r.ttl.toNat ++ (beBytes 2 r.rdata.length ++ r.rdata))))

/-- The address of an IN A record with four bytes of data. -/
def address (r : DnsRecord) : Option Ipv4Addr :=
  if r.rtype = 1 ∧ r.rclass = 1 then
    if four : r.rdata.toArray.size = 4 then some ⟨r.rdata.toArray, four⟩ else none
  else none

theorem address_of_found (r : DnsRecord) (one : r.rtype = 1) (internet : r.rclass = 1)
    (four : r.rdata.toArray.size = 4) : r.address = some ⟨r.rdata.toArray, four⟩ := by
  rw [address, if_pos ⟨one, internet⟩, dif_pos four]

theorem address_of_other (r : DnsRecord)
    (other : ¬ (r.rtype = 1 ∧ r.rclass = 1 ∧ r.rdata.length = 4)) : r.address = none := by
  unfold address
  split
  next found => exact dif_neg fun four => other ⟨found.1, found.2, four⟩
  next => rfl

end DnsRecord

/-- A response without an error; what follows its answers may be anything. -/
structure DnsResponse where
  id : UInt16
  flags : UInt8
  codes : UInt8
  questions : List DnsQuestion
  answers : List DnsRecord
  nscount : UInt16
  arcount : UInt16
  behind : List UInt8
  isResponse : flags &&& 0x80 ≠ 0
  noError : codes &&& 0x0F = 0
  questions_fit : questions.length < 65536
  answers_fit : answers.length < 65536

namespace DnsResponse

def header (r : DnsResponse) : List UInt8 :=
  beBytes 2 r.id.toNat ++ ([r.flags, r.codes] ++ (beBytes 2 r.questions.length ++
    (beBytes 2 r.answers.length ++ (beBytes 2 r.nscount.toNat ++ beBytes 2 r.arcount.toNat))))

def bytes (r : DnsResponse) : List UInt8 :=
  r.header ++ (r.questions.flatMap DnsQuestion.bytes ++
    (r.answers.flatMap DnsRecord.bytes ++ r.behind))

/-- The address of the first record that has one. -/
def firstAddress (r : DnsResponse) : Option Ipv4Addr := r.answers.findSome? DnsRecord.address

end DnsResponse

/-- The bytes stand in the packet from a position on. -/
def Stands (packet : List UInt8) (pos : Nat) (bytes : List UInt8) : Prop :=
  bytes <+: packet.drop pos

section Stands

variable {packet a b bytes : List UInt8} {pos v : Nat} {c : UInt8}

theorem Stands.front (stands : Stands packet pos (a ++ b)) : Stands packet pos a :=
  (List.prefix_append a b).trans stands

theorem Stands.behind (stands : Stands packet pos (a ++ b)) :
    Stands packet (pos + a.length) b := by
  obtain ⟨rest, eq⟩ := stands
  refine ⟨rest, ?_⟩
  rw [← List.drop_drop, ← eq, List.append_assoc, List.drop_left]

theorem Stands.byte (stands : Stands packet pos (c :: bytes)) : packet[pos]? = some c := by
  obtain ⟨rest, eq⟩ := stands
  rw [← List.head?_drop, ← eq]
  rfl

theorem Stands.length_le (stands : Stands packet pos bytes) (some_ : bytes ≠ []) :
    pos + bytes.length ≤ packet.length := by
  have short := List.IsPrefix.length_le stands
  have positive := List.length_pos_iff.mpr some_
  rw [List.length_drop] at short
  omega

theorem Stands.u16At (stands : Stands packet pos (beBytes 2 v)) (fits : v < 65536) :
    u16At packet pos = pure v := by
  obtain ⟨high, low, eq⟩ : ∃ high low, beBytes 2 v = [high, low] := ⟨_, _, rfl⟩
  have value : beNat (beBytes 2 v) = v := beNat_beBytes fits
  rw [eq] at stands value
  apply bind_eq_pure.mpr
  refine ⟨high, index_eq_pure.mpr stands.byte, ?_⟩
  apply bind_eq_pure.mpr
  refine ⟨low, index_eq_pure.mpr (Stands.behind (a := [high]) stands).byte, ?_⟩
  rw [value]

theorem Stands.addressAt (stands : Stands packet pos bytes) (four : bytes.toArray.size = 4) :
    addressAt packet pos = pure ⟨bytes.toArray, four⟩ := by
  match bytes, stands, four with
  | [a, b, c, d], stands, four =>
    apply bind_eq_pure.mpr
    refine ⟨a, index_eq_pure.mpr stands.byte, ?_⟩
    apply bind_eq_pure.mpr
    refine ⟨b, index_eq_pure.mpr (Stands.behind (a := [a]) stands).byte, ?_⟩
    apply bind_eq_pure.mpr
    refine ⟨c, index_eq_pure.mpr (Stands.behind (a := [a, b]) stands).byte, ?_⟩
    apply bind_eq_pure.mpr
    exact ⟨d, index_eq_pure.mpr (Stands.behind (a := [a, b, c]) stands).byte, rfl⟩

end Stands

theorem isPointer_label {n : Nat} (short : n ≤ 63) : isPointer (UInt8.ofNat n) = false := by
  have bits : ∀ k < 64, k &&& 0xC0 = 0 := by decide
  have value : (UInt8.ofNat n).toNat = n := by
    rw [UInt8.toNat_ofNat']
    omega
  unfold isPointer
  rw [beq_eq_false_iff_ne]
  intro same
  have low := congrArg UInt8.toNat same
  rw [UInt8.toNat_and, value] at low
  change n &&& 0xC0 = 0xC0 at low
  rw [bits n (by omega)] at low
  cases low

theorem isPointer_zero : isPointer 0 = false := isPointer_label (n := 0) (by omega)

section Reads

variable {packet : List UInt8} {pos count : Nat}

/-- What one pass of the loop over a name does, read off the byte it stands at. -/
theorem skipName_eq {b : UInt8} (here : packet[pos]? = some b) :
    skipName packet pos = if b = 0 then .ok (pos + 1)
      else if isPointer b then
        if pos + 2 ≤ packet.length then .ok (pos + 2) else .error "pointer runs past the packet"
      else skipName packet (pos + (1 + b.toNat)) := by
  obtain ⟨inside, byte⟩ := List.getElem?_eq_some_iff.mp here
  rw [skipName, dif_pos inside, byte]

theorem NameEnd.skip (e : NameEnd) (stands : Stands packet pos e.bytes) :
    skipName packet pos = .ok (pos + e.bytes.length) := by
  cases e with
  | root =>
    rw [skipName_eq stands.byte, if_pos rfl]
    rfl
  | pointer high low both =>
    have fits : pos + 2 ≤ packet.length := stands.length_le (List.cons_ne_nil _ _)
    have nonzero : high ≠ 0 := by
      rintro rfl
      rw [isPointer_zero] at both
      cases both
    rw [skipName_eq stands.byte, if_neg nonzero, if_pos both, if_pos fits]
    rfl

theorem DnsName.skip (n : DnsName) (stands : Stands packet pos n.bytes) :
    skipName packet pos = .ok (pos + n.bytes.length) := by
  obtain ⟨labels, ending, fit⟩ := n
  unfold DnsName.bytes at stands ⊢
  dsimp only at stands ⊢
  induction labels generalizing pos with
  | nil => exact ending.skip stands
  | cons label labels ih =>
    obtain ⟨some_, short⟩ := fit label List.mem_cons_self
    have rest := @ih (pos + (labelBytes label).length)
      fun other mem => fit other (List.mem_cons_of_mem label mem)
    rw [List.flatMap_cons, List.append_assoc] at stands
    have value : (UInt8.ofNat label.length).toNat = label.length := by
      rw [UInt8.toNat_ofNat']
      omega
    have nonzero : UInt8.ofNat label.length ≠ 0 := by
      intro zero
      rw [zero] at value
      exact some_ (List.length_eq_zero_iff.mp value.symm)
    have first : Stands packet pos (UInt8.ofNat label.length :: label) := stands.front
    have width : (labelBytes label).length = 1 + label.length := by
      rw [labelBytes, List.length_cons, Nat.add_comm]
    rw [width] at rest
    rw [skipName_eq first.byte, if_neg nonzero, isPointer_label short, value]
    have behind := stands.behind
    rw [width] at behind
    rw [if_neg (by simp), rest behind]
    simp only [List.flatMap_cons, List.length_append, width]
    congr 1
    omega

theorem skipQuestions_bytes {questions : List DnsQuestion}
    (stands : Stands packet pos (questions.flatMap DnsQuestion.bytes)) :
    skipQuestions packet questions.length pos =
      pure (pos + (questions.flatMap DnsQuestion.bytes).length) := by
  induction questions generalizing pos with
  | nil => rfl
  | cons q questions ih =>
    rw [List.flatMap_cons] at stands
    have own : Stands packet pos q.bytes := stands.front
    have name := q.name.skip own.front
    have rest := ih stands.behind
    have width : q.bytes.length = q.name.bytes.length + 4 := by
      simp [DnsQuestion.bytes]
    have fits : pos + q.bytes.length ≤ packet.length := by
      apply own.length_le
      intro empty
      rw [empty, List.length_nil] at width
      omega
    rw [width] at rest fits
    apply bind_eq_pure.mpr
    refine ⟨_, lift_eq_pure.mpr name, ?_⟩
    rw [if_pos (by omega), Nat.add_assoc, rest, List.flatMap_cons, List.length_append, width,
      Nat.add_assoc]

/-- The reader's answer to a list of records. -/
def answerOf (found : Option Ipv4Addr) : Reading Ipv4Addr :=
  found.elim (throw "no A record in the answer") pure

theorem readAnswers_bytes {answers : List DnsRecord}
    (stands : Stands packet pos (answers.flatMap DnsRecord.bytes)) :
    readAnswers packet answers.length pos = answerOf (answers.findSome? DnsRecord.address) := by
  induction answers generalizing pos with
  | nil => rfl
  | cons r answers ih =>
    rw [List.flatMap_cons] at stands
    have own : Stands packet pos r.bytes := stands.front
    have rest := ih stands.behind
    have name := r.name.skip own.front
    have width : r.bytes.length = r.name.bytes.length + 10 + r.rdata.length := by
      simp [DnsRecord.bytes]
      omega
    have fits : pos + r.bytes.length ≤ packet.length := by
      apply own.length_le
      intro empty
      rw [empty, List.length_nil] at width
      omega
    have fields := own.behind
    have kind := fields.front.u16At r.rtype.toNat_lt
    have sort_ := fields.behind.front.u16At r.rclass.toNat_lt
    have size := fields.behind.behind.behind.front.u16At r.rdata_fits
    have data := fields.behind.behind.behind.behind
    simp only [beBytes_length] at sort_ size data
    rw [List.length_cons, readAnswers, name]
    change (if packet.length < pos + r.name.bytes.length + 10 then _ else _ : Reading Ipv4Addr) = _
    rw [if_neg (by omega), kind, sort_, size]
    simp only [pure_bind]
    rw [if_neg (by omega)]
    rw [List.findSome?_cons]
    split
    next found =>
      obtain ⟨one, internet, four⟩ := found
      have sized : r.rdata.toArray.size = 4 := four
      rw [r.address_of_found (UInt16.toNat_inj.mp one) (UInt16.toNat_inj.mp internet) sized]
      exact data.addressAt sized
    next other =>
      have none_ : r.address = none := by
        apply r.address_of_other
        rintro ⟨one, internet, four⟩
        exact other ⟨congrArg UInt16.toNat one, congrArg UInt16.toNat internet, four⟩
      rw [width, ← Nat.add_assoc, ← Nat.add_assoc] at rest
      rw [none_]
      exact rest

end Reads

/-- Of a whole response the first address among its records is read. -/
theorem firstAAnswer_bytes (r : DnsResponse) :
    firstAAnswer r.bytes r.id = answerOf r.firstAddress := by
  have whole : Stands r.bytes 0 r.bytes := List.prefix_rfl
  have header : Stands r.bytes 0 r.header := Stands.front whole
  have sections := Stands.behind (a := r.header) whole
  have long : ¬ r.bytes.length < 12 := by
    have short := header.length_le (List.cons_ne_nil _ _)
    have width : r.header.length = 12 := rfl
    omega
  have questions := skipQuestions_bytes (Stands.front sections)
  have answers := readAnswers_bytes (Stands.front (Stands.behind sections))
  obtain ⟨a, b, ident⟩ : ∃ a b, beBytes 2 r.id.toNat = [a, b] := ⟨_, _, rfl⟩
  have behindId := header.behind
  have codes := behindId.front
  have counts := behindId.behind
  have first : Stands r.bytes 0 [a, b] := ident ▸ header.front
  have qdcount : u16At r.bytes 4 = pure r.questions.length := counts.front.u16At r.questions_fit
  have ancount : u16At r.bytes 6 = pure r.answers.length :=
    counts.behind.front.u16At r.answers_fit
  rw [ident] at codes
  have high : index r.bytes 0 = pure a := index_eq_pure.mpr first.byte
  have low : index r.bytes 1 = pure b := index_eq_pure.mpr (Stands.behind (a := [a]) first).byte
  have flags : index r.bytes 2 = pure r.flags := index_eq_pure.mpr codes.byte
  have code : index r.bytes 3 = pure r.codes :=
    index_eq_pure.mpr (Stands.behind (a := [r.flags]) codes).byte
  have start : 0 + r.header.length = 12 := rfl
  rw [start] at questions answers
  rw [firstAAnswer, if_neg long, high, low]
  simp only [pure_bind]
  rw [ident, if_neg (by simp), flags]
  simp only [pure_bind]
  rw [if_neg r.isResponse, code]
  simp only [pure_bind]
  rw [if_neg (by simp [r.noError]), qdcount, ancount]
  simp only [pure_bind]
  rw [questions]
  exact answers

/-- The reader indexes no byte that is not there; of a well-formed response it gives the first
address among its records or says that there is none, and of what is left of one that was cut it
gives that address or an error. -/
theorem first_a_answer_exact :
    (∀ packet id, ∃ outcome, (firstAAnswer packet id).run = some outcome) ∧
      (∀ r : DnsResponse, (firstAAnswer r.bytes r.id).run =
        some (match r.firstAddress with
          | some address => .ok address
          | none => .error "no A record in the answer")) ∧
      ∀ (r : DnsResponse) (n : Nat),
        (∃ address, r.firstAddress = some address ∧
            (firstAAnswer (r.bytes.take n) r.id).run = some (.ok address)) ∨
          ∃ error, (firstAAnswer (r.bytes.take n) r.id).run = some (.error error) := by
  refine ⟨returns_firstAAnswer, ?_, ?_⟩
  · intro r
    rw [firstAAnswer_bytes]
    cases r.firstAddress with
    | none => rfl
    | some address => rfl
  · intro r n
    obtain ⟨outcome, returned⟩ := returns_firstAAnswer (r.bytes.take n) r.id
    cases outcome with
    | error e => exact .inr ⟨e, returned⟩
    | ok address =>
      have whole := firstAAnswer_front (List.take_prefix n r.bytes) returned
      rw [firstAAnswer_bytes] at whole
      refine .inl ⟨address, ?_, returned⟩
      cases found : r.firstAddress with
      | none =>
        rw [found] at whole
        exact absurd whole throw_ne_pure
      | some other =>
        rw [found] at whole
        cases whole
        rfl

end DnsAnswer
end NetObserver
