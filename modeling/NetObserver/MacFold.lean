import NetObserver.Frame

/-! The fold of a printed MAC address against the addresses a device can have: three readers of one
notation, and where they differ. -/

namespace NetObserver

/-- The groups between the colons. -/
def groups (s : String) : List (List Char) := s.toList.splitOn ':'

/-- One or two hex digits, and nothing else. -/
def groupValue : List Char → Option Nat
  | [a] => hexDigit a
  | [a, b] => do
    let high ← hexDigit a
    let low ← hexDigit b
    return high * 16 + low
  | _ => none

/-- Six groups of one or two hex digits, and the octets they spell. -/
def Spells (s : String) (mac : MacAddr) : Prop :=
  (groups s).map groupValue = mac.toList.map fun o => some o.toNat

/-- A group of digits in no more than the two places of an octet, without a sign. -/
def Plain (group : List Char) : Prop := group.head? ≠ some '+' ∧ group.length ≤ 2

theorem mapM_eq_some_iff {α β : Type} {f : α → Option β} {xs : List α} {ys : List β} :
    xs.mapM f = some ys ↔ xs.map f = ys.map some := by
  induction xs generalizing ys with
  | nil =>
    cases ys with
    | nil => simp
    | cons y ys => simp
  | cons x xs ih =>
    rw [List.mapM_cons, List.map_cons]
    cases ys with
    | nil => simp [Option.bind_eq_some_iff]
    | cons y ys => simp [Option.bind_eq_some_iff, ih]

theorem hexDigit_lt {c : Char} {d : Nat} (digit : hexDigit c = some d) : d < 16 := by
  have nine : '9'.toNat = 57 := rfl
  have f : 'f'.toNat = 102 := rfl
  have capital : 'F'.toNat = 70 := rfl
  have zero : '0'.toNat = 48 := rfl
  have a : 'a'.toNat = 97 := rfl
  have capitalA : 'A'.toNat = 65 := rfl
  unfold hexDigit at digit
  split at digit
  next range =>
    have high : c.toNat ≤ '9'.toNat := range.2
    cases digit
    omega
  next =>
    split at digit
    next range =>
      have high : c.toNat ≤ 'f'.toNat := range.2
      cases digit
      omega
    next =>
      split at digit
      next range =>
        have high : c.toNat ≤ 'F'.toNat := range.2
        cases digit
        omega
      next => cases digit

theorem hexByteFrom_le {cs : List Char} {value n : Nat} (bound : value ≤ 255)
    (read : hexByteFrom value cs = some n) : n ≤ 255 := by
  induction cs generalizing value with
  | nil =>
    cases read
    exact bound
  | cons c cs ih =>
    obtain ⟨digit, -, rest⟩ := Option.bind_eq_some_iff.mp read
    split at rest
    next fits => exact ih fits rest
    next => cases rest

theorem hexByte_le {group : List Char} {n : Nat} (read : hexByte group = some n) : n ≤ 255 := by
  unfold hexByte at read
  split at read
  next => cases read
  next => cases read
  next => exact hexByteFrom_le (Nat.zero_le 255) read
  next => exact hexByteFrom_le (Nat.zero_le 255) read

theorem hexByte_unsigned {group : List Char} (some_char : group ≠ [])
    (unsigned : group.head? ≠ some '+') : hexByte group = hexByteFrom 0 group := by
  unfold hexByte
  split
  next => exact absurd rfl some_char
  next => exact absurd rfl unsigned
  next => exact absurd rfl unsigned
  next => rfl

theorem hexByteFrom_digit (c : Char) (cs : List Char) :
    hexByteFrom 0 (c :: cs) = (hexDigit c).bind fun d => hexByteFrom d cs := by
  rw [hexByteFrom]
  cases digit : hexDigit c with
  | none => rfl
  | some d =>
    have small := hexDigit_lt digit
    have fits : 0 * 16 + d ≤ 255 := by omega
    dsimp only [bind, Option.bind]
    rw [if_pos fits, Nat.zero_mul, Nat.zero_add]

theorem hexByteFrom_pair {d : Nat} (small : d < 16) (c : Char) :
    hexByteFrom d [c] = (hexDigit c).map fun low => d * 16 + low := by
  rw [hexByteFrom]
  cases digit : hexDigit c with
  | none => rfl
  | some low =>
    have small' := hexDigit_lt digit
    have fits : d * 16 + low ≤ 255 := by omega
    dsimp only [bind, Option.bind]
    rw [if_pos fits]
    rfl

/-- A plain group is read as the octet it spells. -/
theorem groupValue_of_plain {group : List Char} (plain : Plain group) :
    groupValue group = hexByte group := by
  obtain ⟨unsigned, short⟩ := plain
  match group with
  | [] => rfl
  | [a] =>
    rw [hexByte_unsigned (List.cons_ne_nil a []) unsigned, hexByteFrom_digit, groupValue]
    cases hexDigit a with
    | none => rfl
    | some d => rfl
  | [a, b] =>
    rw [hexByte_unsigned (List.cons_ne_nil a [b]) unsigned, hexByteFrom_digit, groupValue]
    cases digit : hexDigit a with
    | none => rfl
    | some d =>
      dsimp only [bind, Option.bind]
      rw [hexByteFrom_pair (hexDigit_lt digit)]
      cases hexDigit b <;> rfl
  | a :: b :: c :: rest =>
    rw [List.length_cons, List.length_cons, List.length_cons] at short
    omega

theorem plain_of_groupValue {group : List Char} {n : Nat} (spelled : groupValue group = some n) :
    Plain group := by
  match group with
  | [] => cases spelled
  | [a] =>
    refine ⟨?_, Nat.le_succ 1⟩
    rintro signed
    cases signed
    cases spelled
  | [a, b] =>
    refine ⟨?_, Nat.le_refl 2⟩
    rintro signed
    cases signed
    cases spelled
  | a :: b :: c :: rest => cases spelled

theorem ofNat_toNat_map (octets : List UInt8) :
    (octets.map UInt8.toNat).map UInt8.ofNat = octets := by
  rw [List.map_map]
  exact (List.map_congr_left fun o _ => UInt8.ofNat_toNat).trans (List.map_id octets)

/-- Six groups that the library's integer parser reads, as the octets it reads them as. -/
def Reads (s : String) (mac : MacAddr) : Prop :=
  (groups s).map hexByte = mac.toList.map fun o => some o.toNat

theorem reads_iff_mapM {s : String} {mac : MacAddr} :
    Reads s mac ↔ (groups s).mapM hexByte = some (mac.toList.map UInt8.toNat) := by
  rw [Reads, mapM_eq_some_iff, List.map_map]
  rfl

theorem macOctets_iff {s : String} {mac : MacAddr} : macOctets s = some mac ↔ Reads s mac := by
  rw [reads_iff_mapM]
  unfold macOctets
  rw [Option.bind_eq_bind, Option.bind_eq_some_iff]
  constructor
  · rintro ⟨octets, read, taken⟩
    dsimp only at taken
    split at taken
    next six =>
      cases taken
      have bytes : (octets.map UInt8.ofNat).map UInt8.toNat = octets := by
        rw [List.map_map]
        refine (List.map_congr_left fun o mem => ?_).trans (List.map_id octets)
        have groups : some o ∈ octets.map some := List.mem_map_of_mem mem
        rw [← mapM_eq_some_iff.mp read] at groups
        obtain ⟨group, -, value⟩ := List.mem_map.mp groups
        have small := hexByte_le value
        exact UInt8.toNat_ofNat_of_lt (Nat.lt_succ_of_le small)
      exact read.trans (congrArg some bytes.symm)
    next => cases taken
  · intro read
    refine ⟨_, read, ?_⟩
    dsimp only
    rw [dif_pos]
    · exact congrArg some (Vector.toList_inj.mp (ofNat_toNat_map mac.toList))
    · rw [ofNat_toNat_map, Vector.length_toList]

theorem and_one_eq_one_iff (o : UInt8) : o &&& 1 = 1 ↔ o.toNat % 2 = 1 := by
  rw [← UInt8.toNat_inj, UInt8.toNat_and]
  change o.toNat &&& 1 = 1 ↔ _
  rw [Nat.and_one_is_mod]

theorem eq_replicate_iff {mac : MacAddr} {v : UInt8} :
    mac = Vector.replicate 6 v ↔ ∀ o ∈ mac.toList, o = v := by
  rw [← Vector.toList_inj, Vector.toList_replicate, List.eq_replicate_iff, Vector.length_toList]
  exact and_iff_right rfl

theorem eq_broadcast_iff (mac : MacAddr) :
    mac = broadcast ↔ (mac.toList.map UInt8.toNat).all (· == 255) = true := by
  rw [broadcast, eq_replicate_iff, List.all_map, List.all_eq_true]
  refine forall₂_congr fun o _ => ?_
  change o = 255 ↔ (o.toNat == 255) = true
  rw [beq_iff_eq, ← UInt8.toNat_inj]
  rfl

theorem any_ne_iff (mac : MacAddr) (v : UInt8) :
    mac.toList.any (· != v) = true ↔ mac ≠ Vector.replicate 6 v := by
  rw [ne_eq, eq_replicate_iff, List.any_eq_true]
  simp only [bne_iff_ne, not_forall, exists_prop]

theorem refused_iff (mac : MacAddr) : Refused mac ↔
    ((mac.toList.map UInt8.toNat).all (· == 255) ||
      (mac.toList.map UInt8.toNat).headD 0 % 2 == 1) = true := by
  have head : (mac.toList.map UInt8.toNat).headD 0 = mac[0].toNat := by
    obtain ⟨a, b, c, d, e, f, rfl⟩ := exists_octets mac
    rfl
  rw [Refused, eq_broadcast_iff, and_one_eq_one_iff, Bool.or_eq_true, head, beq_iff_eq]

theorem macText_eq (mac : MacAddr) :
    ":".intercalate ((mac.toList.map UInt8.toNat).map hexPair) = macText mac := by
  rw [macText, List.map_map]
  rfl

/-- The fold is the reader of octets, but for the addresses it refuses. -/
theorem normalizeMac_eq (s : String) : normalizeMac s =
    (macOctets s).bind fun mac => if Refused mac then none else some (macText mac) := by
  change (if (groups s).length ≠ 6 then none else ((groups s).mapM hexByte).bind _) = _
  cases octets : macOctets s with
  | some mac =>
    have read := reads_iff_mapM.mp (macOctets_iff.mp octets)
    have six := congrArg List.length (mapM_eq_some_iff.mp read)
    rw [List.length_map, List.length_map, List.length_map, Vector.length_toList] at six
    rw [if_neg (not_not_intro six), read, Option.bind_some, Option.bind_some]
    simp only [refused_iff, macText_eq]
  | none =>
    split
    next => rfl
    next six =>
      cases read : (groups s).mapM hexByte with
      | none => rfl
      | some values =>
        have lengths := congrArg List.length (mapM_eq_some_iff.mp read)
        rw [List.length_map, List.length_map, not_ne_iff.mp six] at lengths
        have found : (macOctets s).isSome := by
          unfold macOctets
          change (((groups s).mapM hexByte).bind _).isSome
          rw [read, Option.bind_some]
          dsimp only
          rw [dif_pos]
          · rfl
          · rw [List.length_map, ← lengths]
        rw [octets] at found
        cases found

theorem hexDigit_digitChar : ∀ d < 16, hexDigit d.digitChar = some d ∧ d.digitChar ≠ '+' ∧
    d.digitChar ≠ ':' := by
  decide

theorem hexByte_hexPair (o : UInt8) : hexByte (hexPair o.toNat).toList = some o.toNat := by
  have byte := o.toNat_lt
  have high := hexDigit_digitChar (o.toNat / 16) (by omega)
  have low := hexDigit_digitChar (o.toNat % 16) (by omega)
  have unsigned : [(o.toNat / 16).digitChar, (o.toNat % 16).digitChar].head? ≠ some '+' := by
    intro signed
    exact high.2.1 (Option.some.inj signed)
  rw [hexPair, String.toList_ofList, hexByte_unsigned (List.cons_ne_nil _ _) unsigned,
    hexByteFrom_digit, high.1, Option.bind_some, hexByteFrom_pair (by omega), low.1]
  refine congrArg some ?_
  dsimp only
  omega

theorem groups_macText (mac : MacAddr) :
    groups (macText mac) = mac.toList.map fun o => (hexPair o.toNat).toList := by
  have colon : (":" : String).toList = [':'] := rfl
  have apart : ∀ l ∈ mac.toList.map fun o => (hexPair o.toNat).toList, ':' ∉ l := by
    intro l mem
    obtain ⟨o, -, rfl⟩ := List.mem_map.mp mem
    have byte := o.toNat_lt
    have high := hexDigit_digitChar (o.toNat / 16) (by omega)
    have low := hexDigit_digitChar (o.toNat % 16) (by omega)
    rw [hexPair, String.toList_ofList]
    intro inside
    rcases List.mem_cons.mp inside with here | inside
    · exact high.2.2 here.symm
    · exact low.2.2 (List.mem_singleton.mp inside).symm
  have some_group : (mac.toList.map fun o => (hexPair o.toNat).toList) ≠ [] := by
    apply List.ne_nil_of_length_pos
    rw [List.length_map, Vector.length_toList]
    omega
  rw [groups, macText, String.toList_intercalate, colon, List.map_map]
  exact List.splitOn_intercalate ':' apart some_group

/-- The text of an address is read as its octets. -/
theorem macOctets_macText (mac : MacAddr) : macOctets (macText mac) = some mac := by
  rw [macOctets_iff, Reads, groups_macText, List.map_map]
  exact List.map_congr_left fun o _ => hexByte_hexPair o

theorem Reads.unique {s : String} {mac mac' : MacAddr} (read : Reads s mac)
    (read' : Reads s mac') : mac = mac' :=
  Option.some.inj ((macOctets_iff.mpr read).symm.trans (macOctets_iff.mpr read'))

theorem normalizeMac_eq_some_iff {s t : String} : normalizeMac s = some t ↔
    ∃ mac, Reads s mac ∧ ¬ Refused mac ∧ t = macText mac := by
  rw [normalizeMac_eq, Option.bind_eq_some_iff]
  constructor
  · rintro ⟨mac, octets, folded⟩
    split at folded
    next => cases folded
    next kept => exact ⟨mac, macOctets_iff.mp octets, kept, (Option.some.inj folded).symm⟩
  · rintro ⟨mac, read, kept, rfl⟩
    exact ⟨mac, macOctets_iff.mpr read, if_neg kept⟩

/-- What spells octets is read as them; what else is read has a group that is not plain. -/
theorem spells_iff {s : String} {mac : MacAddr} :
    Spells s mac ↔ Reads s mac ∧ ∀ group ∈ groups s, Plain group := by
  rw [Reads, Spells]
  constructor
  · intro spelled
    have plain : ∀ group ∈ groups s, Plain group := by
      intro group mem
      have value := List.mem_map_of_mem (f := groupValue) mem
      rw [spelled] at value
      obtain ⟨o, -, same⟩ := List.mem_map.mp value
      exact plain_of_groupValue same.symm
    refine ⟨?_, plain⟩
    exact (List.map_congr_left fun group mem => (groupValue_of_plain (plain group mem)).symm).trans
      spelled
  · rintro ⟨read, plain⟩
    exact (List.map_congr_left fun group mem => groupValue_of_plain (plain group mem)).trans read

theorem isUnicast_iff (mac : MacAddr) : isUnicast mac = true ↔ ¬ Refused mac ∧ mac ≠ unset := by
  have bit : mac[0] &&& 1 = 0 ↔ ¬ mac[0] &&& 1 = 1 := by
    rw [and_one_eq_one_iff, ← UInt8.toNat_inj, UInt8.toNat_and]
    change mac[0].toNat &&& 1 = 0 ↔ _
    rw [Nat.and_one_is_mod]
    omega
  rw [isUnicast, Bool.and_eq_true, Bool.and_eq_true, any_ne_iff, any_ne_iff, beq_iff_eq, bit,
    Refused, not_or, broadcast, unset]
  constructor
  · rintro ⟨⟨single, notBroadcast⟩, set⟩
    exact ⟨⟨notBroadcast, single⟩, set⟩
  · rintro ⟨⟨notBroadcast, single⟩, set⟩
    exact ⟨⟨single, notBroadcast⟩, set⟩

/-- A string is folded exactly when it spells a unicast address, unless it has a group that is not
plain, or spells the unset address. What is folded is the text of the octets, folds to itself, and
is read back as them. Strings of the same octets have one fold. -/
theorem normalizeMac_iff (s : String) :
    (((∃ t, normalizeMac s = some t) ↔ ∃ mac, Spells s mac ∧ isUnicast mac = true) ↔
      ∀ mac, Reads s mac → ¬ Refused mac →
        mac ≠ unset ∧ ∀ group ∈ groups s, Plain group) ∧
    (∀ t, normalizeMac s = some t → (∃ mac, Reads s mac ∧ t = macText mac) ∧
      normalizeMac t = some t ∧ (macOctets t).map macText = some t) ∧
    ∀ s' mac, Reads s mac → Reads s' mac → normalizeMac s' = normalizeMac s := by
  refine ⟨⟨?_, ?_⟩, ?_, ?_⟩
  · intro exactly mac read kept
    obtain ⟨mac', spelled, unicast⟩ :=
      exactly.mp ⟨_, normalizeMac_eq_some_iff.mpr ⟨mac, read, kept, rfl⟩⟩
    obtain ⟨read', plain⟩ := spells_iff.mp spelled
    obtain rfl := read.unique read'
    exact ⟨((isUnicast_iff mac).mp unicast).2, plain⟩
  · intro condition
    constructor
    · rintro ⟨t, folded⟩
      obtain ⟨mac, read, kept, -⟩ := normalizeMac_eq_some_iff.mp folded
      obtain ⟨set, plain⟩ := condition mac read kept
      exact ⟨mac, spells_iff.mpr ⟨read, plain⟩, (isUnicast_iff mac).mpr ⟨kept, set⟩⟩
    · rintro ⟨mac, spelled, unicast⟩
      have read := (spells_iff.mp spelled).1
      have kept := ((isUnicast_iff mac).mp unicast).1
      exact ⟨_, normalizeMac_eq_some_iff.mpr ⟨mac, read, kept, rfl⟩⟩
  · intro t folded
    obtain ⟨mac, read, kept, rfl⟩ := normalizeMac_eq_some_iff.mp folded
    have back := macOctets_macText mac
    refine ⟨⟨mac, read, rfl⟩,
      normalizeMac_eq_some_iff.mpr ⟨mac, macOctets_iff.mp back, kept, rfl⟩, ?_⟩
    rw [back, Option.map_some]
  · intro s' mac read read'
    rw [normalizeMac_eq, normalizeMac_eq s, macOctets_iff.mpr read, macOctets_iff.mpr read']

/-- A sign, a third digit and the unset address are let through. -/
theorem normalizeMac_not_exact :
    (normalizeMac "+a:0:0:0:0:1" = some "0a:00:00:00:00:01" ∧
        ¬ ∃ mac, Spells "+a:0:0:0:0:1" mac) ∧
      (normalizeMac "00a:0:0:0:0:1" = some "0a:00:00:00:00:01" ∧
        ¬ ∃ mac, Spells "00a:0:0:0:0:1" mac) ∧
      (normalizeMac "0:0:0:0:0:0" = some "00:00:00:00:00:00" ∧
        ¬ ∃ mac, Spells "0:0:0:0:0:0" mac ∧ isUnicast mac = true) := by
  refine ⟨⟨by decide, ?_⟩, ⟨by decide, ?_⟩, by decide, ?_⟩
  · rintro ⟨mac, spelled⟩
    have plain := (spells_iff.mp spelled).2 ['+', 'a'] (by decide)
    exact plain.1 rfl
  · rintro ⟨mac, spelled⟩
    have plain := (spells_iff.mp spelled).2 ['0', '0', 'a'] (by decide)
    exact absurd plain.2 (by decide)
  · rintro ⟨mac, spelled, unicast⟩
    have read : Reads "0:0:0:0:0:0" unset := macOctets_iff.mp (by decide)
    obtain rfl := read.unique (spells_iff.mp spelled).1
    exact ((isUnicast_iff unset).mp unicast).2 rfl

end NetObserver
