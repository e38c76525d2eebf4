import NetObserver.Frame
import NetObserver.StdText

/-! The text of an IPv4 address, and what can be read off it. -/

namespace NetObserver

namespace DottedQuad

variable {a b : Ipv4Addr} {c : Char}

theorem isDigit_of_mem_repr {n : Nat} (mem : c ∈ n.repr.toList) : c.isDigit = true := by
  rw [Nat.toList_repr] at mem
  exact Nat.isDigit_of_mem_toDigits (by decide) (by decide) mem

theorem repr_injective {m n : Nat} (same : m.repr.toList = n.repr.toList) : m = n := by
  rw [Nat.toList_repr, Nat.toList_repr] at same
  have values := congrArg (Nat.ofDigitChars 10 · 0) same
  simp only [Nat.ofDigitChars_ten_toDigits] at values
  exact values

theorem notMem_repr (n : Nat) (other : c.isDigit = false) : c ∉ n.repr.toList := by
  intro mem
  rw [isDigit_of_mem_repr mem] at other
  cases other

theorem exists_octets (a : Ipv4Addr) : ∃ p q r s, a.toList = [p, q, r, s] := by
  have length_ : a.toList.length = 4 := Vector.length_toList
  obtain ⟨p, rest, first⟩ := List.exists_cons_of_length_eq_add_one length_
  have three : rest.length = 3 := by
    rw [first, List.length_cons] at length_
    omega
  obtain ⟨q, r, s, other⟩ := List.length_eq_three.mp three
  exact ⟨p, q, r, s, by rw [first, other]⟩

theorem text_toList {p q r s : UInt8} (octets : a.toList = [p, q, r, s]) :
    (IpAddr.v4 a).text.toList =
      p.toNat.repr.toList ++ '.' :: (q.toNat.repr.toList ++ '.' ::
        (r.toNat.repr.toList ++ '.' :: s.toNat.repr.toList)) := by
  change (IpAddr.dotted (a.toList.map UInt8.toNat)).toList = _
  rw [octets]
  change (p.toNat.repr ++ "." ++ q.toNat.repr ++ "." ++ r.toNat.repr ++ "." ++
    s.toNat.repr).toList = _
  simp only [String.toList_append, List.append_assoc]
  rfl

/-- A separator splits a text in one way only. -/
theorem split_injective {x y p q : List Char} (free : c ∉ x) (free' : c ∉ y)
    (same : x ++ c :: p = y ++ c :: q) : x = y ∧ p = q := by
  have split := congrArg (StdText.splitOnce c) same
  rw [StdText.splitOnce_append free, StdText.splitOnce_append free'] at split
  exact ⟨congrArg Prod.fst split, Option.some.inj (congrArg Prod.snd split)⟩

theorem text_injective (same : (IpAddr.v4 a).text = (IpAddr.v4 b).text) : a = b := by
  have dot : '.'.isDigit = false := rfl
  obtain ⟨p, q, r, s, octets⟩ := exists_octets a
  obtain ⟨p', q', r', s', octets'⟩ := exists_octets b
  have lists := congrArg String.toList same
  rw [text_toList octets, text_toList octets'] at lists
  obtain ⟨first, lists⟩ := split_injective (notMem_repr _ dot) (notMem_repr _ dot) lists
  obtain ⟨second, lists⟩ := split_injective (notMem_repr _ dot) (notMem_repr _ dot) lists
  obtain ⟨third, fourth⟩ := split_injective (notMem_repr _ dot) (notMem_repr _ dot) lists
  rw [← Vector.toList_inj, octets, octets', UInt8.toNat_inj.mp (repr_injective first),
    UInt8.toNat_inj.mp (repr_injective second), UInt8.toNat_inj.mp (repr_injective third),
    UInt8.toNat_inj.mp (repr_injective fourth)]

theorem mem_text (mem : c ∈ (IpAddr.v4 a).text.toList) : c.isDigit = true ∨ c = '.' := by
  obtain ⟨p, q, r, s, octets⟩ := exists_octets a
  rw [text_toList octets] at mem
  simp only [List.mem_append, List.mem_cons] at mem
  rcases mem with own | dot | own | dot | own | dot | own
  · exact .inl (isDigit_of_mem_repr own)
  · exact .inr dot
  · exact .inl (isDigit_of_mem_repr own)
  · exact .inr dot
  · exact .inl (isDigit_of_mem_repr own)
  · exact .inr dot
  · exact .inl (isDigit_of_mem_repr own)

theorem notMem_text (a : Ipv4Addr) (digit : c.isDigit = false) (dot : c ≠ '.') :
    c ∉ (IpAddr.v4 a).text.toList := by
  intro mem
  rcases mem_text mem with own | own
  · rw [digit] at own
    cases own
  · exact dot own

end DottedQuad

end NetObserver
