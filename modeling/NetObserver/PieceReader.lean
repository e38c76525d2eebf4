import NetObserver.Delimited

/-! A stream that arrives in pieces, read up to a delimiter: what a read gives depends on the
stream alone, not on where its pieces were cut. -/

namespace PieceReader

variable {α : Type*} [DecidableEq α]

/-- What one read of the source delivers; an empty one would be its end. -/
abbrev Piece (α : Type*) := { p : List α // p ≠ [] }

omit [DecidableEq α] in
def content (pieces : List (Piece α)) : List α := pieces.flatMap Subtype.val

/-- A buffered reader: what of the last piece is unread, and the pieces still to come. -/
structure BufReader (α : Type*) where
  buffer : List α
  pieces : List (Piece α)

def BufReader.remaining (r : BufReader α) : List α := r.buffer ++ content r.pieces

/-- Consume a buffer up to the delimiter in it. -/
def takeLine (d : α) (buffer : List α) (pieces : List (Piece α)) : List α × BufReader α :=
  (buffer.take (buffer.idxOf d + 1), ⟨buffer.drop (buffer.idxOf d + 1), pieces⟩)

/-- Buffers are taken whole until one holds the delimiter, and that one up to it. -/
def readUntil (d : α) : List (Piece α) → List α → List α × BufReader α
  | [], buffer => if d ∈ buffer then takeLine d buffer [] else (buffer, ⟨[], []⟩)
  | p :: later, buffer =>
    if d ∈ buffer then takeLine d buffer (p :: later)
    else
      let r := readUntil d later p.val
      (buffer ++ r.1, r.2)

/-- The reader adaptor that ends after `n` elements. -/
def limit : Nat → List (Piece α) → List (Piece α)
  | 0, _ => []
  | _, [] => []
  | n + 1, p :: later =>
    ⟨p.val.take (n + 1), by simpa using p.property⟩ :: limit (n + 1 - p.val.length) later

theorem split_unique {d : α} {s s' ys ys' : List α} (free : d ∉ s) (free' : d ∉ s')
    (same : s ++ d :: ys = s' ++ d :: ys') : s = s' ∧ ys = ys' := by
  have cuts := congrArg (Delimited.cut d) same
  rw [Delimited.cut_append_of_free free, Delimited.cut_append_of_free free',
    Delimited.cut_delimiter, Delimited.cut_delimiter] at cuts
  have first : s = s' := by simpa [Delimited.prepend] using (List.cons.inj (Prod.mk.inj cuts).1).1
  subst first
  exact ⟨rfl, (List.cons.inj (List.append_cancel_left same)).2⟩

theorem takeLine_eq {d : α} {s ys : List α} (free : d ∉ s) (pieces : List (Piece α)) :
    takeLine d (s ++ d :: ys) pieces = (s ++ [d], ⟨ys, pieces⟩) := by
  have place : (s ++ d :: ys).idxOf d = s.length := by
    rw [List.idxOf_append_of_notMem free, List.idxOf_cons_self, Nat.add_zero]
  have whole : s ++ d :: ys = (s ++ [d]) ++ ys := by simp
  have length : s.length + 1 = (s ++ [d]).length := by simp
  rw [takeLine, place, whole, length, List.take_left, List.drop_left]

/-- A buffer that holds the delimiter is enough. -/
theorem readUntil_here {d : α} {buffer : List α} (here : d ∈ buffer) (pieces : List (Piece α)) :
    readUntil d pieces buffer = takeLine d buffer pieces := by
  cases pieces with
  | nil => rw [readUntil, if_pos here]
  | cons p later => rw [readUntil, if_pos here]

omit [DecidableEq α] in
theorem content_cons (p : Piece α) (later : List (Piece α)) :
    content (p :: later) = p.val ++ content later := rfl

/-- A line of the stream is read whole, with its delimiter, and the stream goes on behind it. -/
theorem readUntil_line {d : α} {pieces : List (Piece α)} {buffer s ys : List α} (free : d ∉ s)
    (stream : buffer ++ content pieces = s ++ d :: ys) :
    (readUntil d pieces buffer).1 = s ++ [d] ∧ (readUntil d pieces buffer).2.remaining = ys := by
  induction pieces generalizing buffer s with
  | nil =>
    have all : buffer = s ++ d :: ys := by
      rw [← stream]
      exact (List.append_nil _).symm
    subst all
    rw [readUntil_here (by simp), takeLine_eq free]
    exact ⟨rfl, List.append_nil _⟩
  | cons p later ih =>
    by_cases here : d ∈ buffer
    · obtain ⟨s', ys', rfl, free'⟩ := List.eq_append_cons_of_mem here
      rw [List.append_assoc, List.cons_append] at stream
      obtain ⟨rfl, rfl⟩ := split_unique free' free stream
      rw [readUntil_here here, takeLine_eq free]
      exact ⟨rfl, rfl⟩
    · rw [content_cons] at stream
      obtain ⟨s', rfl⟩ : ∃ s', s = buffer ++ s' := by
        rcases List.append_eq_append_iff.mp stream with ⟨s', front, _⟩ | ⟨back, front, rest⟩
        · exact ⟨s', front⟩
        · cases back with
          | nil => exact ⟨[], by rw [front, List.append_nil, List.append_nil]⟩
          | cons x back =>
            cases (List.cons.inj rest).1
            exact absurd (by rw [front]; simp) here
      have free' : d ∉ s' := fun mem => free (List.mem_append_right _ mem)
      rw [List.append_assoc] at stream
      obtain ⟨taken, left⟩ := ih free' (List.append_cancel_left stream)
      rw [readUntil, if_neg here]
      refine ⟨?_, left⟩
      show buffer ++ (readUntil d later p.val).1 = _
      rw [taken, List.append_assoc]

/-- A stream without the delimiter is read to its end. -/
theorem readUntil_end {d : α} {pieces : List (Piece α)} {buffer : List α}
    (free : d ∉ buffer ++ content pieces) :
    readUntil d pieces buffer = (buffer ++ content pieces, ⟨[], []⟩) := by
  induction pieces generalizing buffer with
  | nil =>
    have none : d ∉ buffer := fun mem => free (List.mem_append_left _ mem)
    rw [readUntil, if_neg none]
    show (buffer, _) = (buffer ++ [], _)
    rw [List.append_nil]
  | cons p later ih =>
    have none : d ∉ buffer := fun mem => free (List.mem_append_left _ mem)
    rw [content_cons] at free ⊢
    have behind : d ∉ p.val ++ content later := fun mem => free (List.mem_append_right _ mem)
    rw [readUntil, if_neg none, ih behind]

omit [DecidableEq α] in
theorem content_limit (n : Nat) (pieces : List (Piece α)) :
    content (limit n pieces) = (content pieces).take n := by
  induction pieces generalizing n with
  | nil => cases n <;> rfl
  | cons p later ih =>
    cases n with
    | zero => exact List.take_zero.symm
    | succ n =>
      show p.val.take (n + 1) ++ content (limit (n + 1 - p.val.length) later) = _
      rw [ih, content_cons, List.take_append]

end PieceReader
