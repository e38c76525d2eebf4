import Mathlib.Data.List.Induction
import NetObserver.Mdns

/-! Whom an mDNS message speaks for: what each record says, which instances are announced for
another host, and that neither the records' order nor their sections matter. -/

namespace NetObserver
theorem filterMap_cons_toList {α β : Type*} (f : α → Option β) (x : α) (xs : List α) :
    (x :: xs).filterMap f = (f x).toList ++ xs.filterMap f := by
  cases told : f x with
  | none => rw [List.filterMap_cons_none told, Option.toList_none, List.nil_append]
  | some y => rw [List.filterMap_cons_some told, Option.toList_some, List.singleton_append]

namespace Mdns

theorem mem_dedup {α : Type*} [DecidableEq α] {x : α} {xs : List α} : x ∈ dedup xs ↔ x ∈ xs := by
  induction xs using dedup.induct with
  | case1 => rfl
  | case2 => rfl
  | case3 x rest ih =>
    rw [dedup, if_pos rfl, ih]
    simp
  | case4 x y rest apart ih => rw [dedup, if_neg apart, List.mem_cons, ih, ← List.mem_cons]

/-- Collecting the names keeps each of them once. -/
theorem mem_collected {name : String} (claims : List (Nat × String)) (hostnames : List String) :
    name ∈ claims.foldl (fun hostnames claim =>
        if hostnames.contains claim.2 then hostnames else hostnames ++ [claim.2]) hostnames ↔
      name ∈ hostnames ∨ ∃ claim ∈ claims, claim.2 = name := by
  induction claims generalizing hostnames with
  | nil => simp
  | cons claim claims ih =>
    rw [List.foldl_cons, ih]
    have here : name ∈ (if hostnames.contains claim.2 then hostnames
        else hostnames ++ [claim.2]) ↔ name ∈ hostnames ∨ claim.2 = name := by
      split
      next listed =>
        constructor
        · exact .inl
        · rintro (old | rfl)
          · exact old
          · exact List.contains_iff_mem.mp listed
      next => rw [List.mem_append, List.mem_singleton, eq_comm (a := name)]
    rw [here, or_assoc]
    simp

section

variable {text : Label → String} {records : List ResourceRecord} {srcIp : IpAddr}

/-- What one record says, whatever the rest of the message holds. -/
inductive Said where
  | claim (rank : Nat) (name : String)
  | enumerates (service : String)
  | offers (inst : String) (service : String × Option String)
  | nothing

def said (text : Label → String) (srcIp : IpAddr) (rr : ResourceRecord) : Said :=
  match rr.rdata with
  | .srv _ =>
    match splitInstance (labels text rr.name) with
    | some (service, inst) => .offers (spelled text rr.name) (service, some inst)
    | none => .nothing
  | .ptr target =>
    if spelled text rr.name = servicesMeta then
      match serviceType (labels text target) with
      | some service => .enumerates service
      | none => .nothing
    else if isReverseOf (labels text rr.name) srcIp then .claim 1 (spelled text target)
    else
      match serviceType (labels text rr.name) with
      | some service =>
        .offers (spelled text target) (service, (splitInstance (labels text target)).map (·.2))
      | none => .nothing
  | _ => if rr.rdata.address = some srcIp then .claim 0 (spelled text rr.name) else .nothing

def Said.take (proxied : List String) (acc : Absorbed) : Said → Absorbed
  | .claim rank name => acc.claim rank name
  | .enumerates service => acc.offer (service, none)
  | .offers inst service => if proxied.contains inst then acc.refuse else acc.offer service
  | .nothing => acc

theorem absorb_eq (proxied : List String) (acc : Absorbed) (rr : ResourceRecord) :
    absorb text srcIp proxied acc rr = (said text srcIp rr).take proxied acc := by
  unfold absorb said
  cases data : rr.rdata with
  | a address =>
    by_cases own : srcIp = .v4 address
    · simp [own, RData.address, Said.take, spelled]
    · simp [own, Ne.symm own, RData.address, Said.take]
  | aaaa address =>
    by_cases own : srcIp = .v6 address
    · simp [own, RData.address, Said.take, spelled]
    · simp [own, Ne.symm own, RData.address, Said.take]
  | srv target =>
    dsimp only
    cases splitInstance (labels text rr.name) with
    | none => rfl
    | some found => rfl
  | ptr target =>
    dsimp only
    by_cases enumeration : join (labels text rr.name) = servicesMeta
    · rw [if_pos enumeration, if_pos (show spelled text rr.name = servicesMeta from enumeration)]
      cases serviceType (labels text target) <;> rfl
    · rw [if_neg enumeration, if_neg (show ¬ spelled text rr.name = servicesMeta from enumeration)]
      by_cases isReverse : isReverseOf (labels text rr.name) srcIp = true
      · rw [if_pos isReverse, if_pos isReverse]
        rfl
      · rw [if_neg isReverse, if_neg isReverse]
        cases serviceType (labels text rr.name) <;> rfl
  | other => simp [RData.address, Said.take]

def Said.claimed : Said → Option (Nat × String)
  | .claim rank name => some (rank, name)
  | _ => none

/-- The service a record adds, unless it is refused. -/
def Said.served (proxied : List String) : Said → Option (String × Option String)
  | .enumerates service => some (service, none)
  | .offers inst service => if proxied.contains inst then none else some service
  | _ => none

def Said.refused (proxied : List String) : Said → Bool
  | .offers inst _ => proxied.contains inst
  | _ => false

theorem Said.take_eq (proxied : List String) (acc : Absorbed) (what : Said) :
    what.take proxied acc = (acc.1 ++ what.claimed.toList,
      ⟨acc.2.hostnames, acc.2.services ++ (what.served proxied).toList,
        acc.2.proxied + if what.refused proxied then 1 else 0⟩) := by
  cases what with
  | claim | enumerates => simp [Said.take, Absorbed.claim, Absorbed.offer, Said.claimed,
      Said.served, Said.refused]
  | nothing => simp [Said.take, Said.claimed, Said.served, Said.refused]
  | offers inst service =>
    by_cases listed : inst ∈ proxied
    · simp [Said.take, Absorbed.refuse, Said.claimed, Said.served, Said.refused, listed]
    · simp [Said.take, Absorbed.offer, Said.claimed, Said.served, Said.refused, listed]

theorem foldl_absorb (proxied : List String) (records : List ResourceRecord) (acc : Absorbed) :
    records.foldl (absorb text srcIp proxied) acc =
      (acc.1 ++ records.filterMap fun rr => (said text srcIp rr).claimed,
        ⟨acc.2.hostnames,
          acc.2.services ++ records.filterMap fun rr => (said text srcIp rr).served proxied,
          acc.2.proxied + records.countP fun rr => (said text srcIp rr).refused proxied⟩) := by
  induction records generalizing acc with
  | nil => simp
  | cons rr records ih =>
    rw [List.foldl_cons, ih, absorb_eq, Said.take_eq]
    rw [filterMap_cons_toList, filterMap_cons_toList, List.countP_cons, List.append_assoc,
      List.append_assoc, Nat.add_assoc, Nat.add_comm (List.countP _ records)]

/-- A hostname is what some record claims as its name. -/
theorem mem_hostnames {name : String} :
    name ∈ (factsOf text records srcIp).hostnames ↔
      ∃ rr ∈ records, ∃ rank, said text srcIp rr = .claim rank name := by
  rw [factsOf, foldl_absorb]
  dsimp only
  rw [mem_collected]
  simp only [List.nil_append, List.not_mem_nil, false_or, List.mem_mergeSort, List.mem_filterMap]
  constructor
  · rintro ⟨claim, ⟨rr, listed, claimed⟩, rfl⟩
    refine ⟨rr, listed, claim.1, ?_⟩
    cases heard : said text srcIp rr <;> rw [heard] at claimed <;> cases claimed
    rfl
  · rintro ⟨rr, listed, rank, heard⟩
    exact ⟨(rank, name), ⟨rr, listed, by rw [heard]; rfl⟩, rfl⟩

end

def lowerByte (b : UInt8) : UInt8 := if 65 ≤ b ∧ b ≤ 90 then b + 32 else b

/-- The same name for the DNS: label by label the same bytes, but for the case of ASCII letters. -/
def SameName (a b : Name) : Prop := a.map (·.map lowerByte) = b.map (·.map lowerByte)

instance (a b : Name) : Decidable (SameName a b) := inferInstanceAs (Decidable (_ = _))

def asciiBytes (text : String) : Label := text.toList.map fun c => UInt8.ofNat c.toNat

def IsAscii (text : String) : Prop := ∀ c ∈ text.toList, c.toNat < 128

/-- How the library shows a label: as ASCII text only if it holds the bytes of that text. -/
def AsciiFaithful (text : Label → String) : Prop :=
  ∀ label, IsAscii (text label) → label = asciiBytes (text label)

/-- The reverse-lookup name of an address. -/
def reverseName (ip : IpAddr) : Name := (reverseLabels ip).map asciiBytes

theorem toLower_ascii_iff (c : Char) : c.toLower.toNat < 128 ↔ c.toNat < 128 := by
  unfold Char.toLower
  split
  next upper =>
    have high : c.toNat ≤ 90 := upper.2
    have shown : (c.val + 32).toNat = c.toNat + 32 := by
      rw [UInt32.toNat_add]
      have : c.val.toNat = c.toNat := rfl
      have : (32 : UInt32).toNat = 32 := rfl
      omega
    change (c.val + 32).toNat < 128 ↔ _
    omega
  next => exact Iff.rfl

theorem lowerByte_ofNat {c : Char} (ascii : c.toNat < 128) :
    lowerByte (UInt8.ofNat c.toNat) = UInt8.ofNat c.toLower.toNat := by
  have each : ∀ n : Fin 128, lowerByte (UInt8.ofNat n) = UInt8.ofNat (Char.ofNat n).toLower.toNat := by
    decide
  have this := each ⟨c.toNat, ascii⟩
  rwa [Char.ofNat_toNat] at this

theorem lower_asciiBytes {text : String} (ascii : IsAscii text) :
    (asciiBytes text).map lowerByte =
      (text.toList.map Char.toLower).map fun c => UInt8.ofNat c.toNat := by
  rw [asciiBytes, List.map_map, List.map_map]
  exact List.map_congr_left fun c listed => lowerByte_ofNat (ascii c listed)

theorem isAscii_of_eqIgnoreAsciiCase {a b : String} (same : eqIgnoreAsciiCase a b = true)
    (ascii : IsAscii b) : IsAscii a := by
  have lowered : a.toList.map Char.toLower = b.toList.map Char.toLower := eq_of_beq same
  intro c listed
  have inLower : c.toLower ∈ b.toList.map Char.toLower := by
    rw [← lowered]
    exact List.mem_map_of_mem listed
  obtain ⟨d, ofB, eq⟩ := List.mem_map.mp inLower
  have low := (toLower_ascii_iff d).mpr (ascii d ofB)
  rw [eq] at low
  exact (toLower_ascii_iff c).mp low

theorem isAscii_reverseLabels {ip : IpAddr} {label : String} (listed : label ∈ reverseLabels ip) :
    IsAscii label := by
  have digit {c : Char} (isDigit : c.isDigit = true) : c.toNat < 128 := by
    have high : c.toNat ≤ 57 := by
      have both := isDigit
      rw [Char.isDigit, Bool.and_eq_true, decide_eq_true_eq, decide_eq_true_eq] at both
      exact both.2
    omega
  have fixed (suffix : List String) (ascii : suffix.all (·.toList.all (·.toNat < 128)) = true)
      (listed : label ∈ suffix) : IsAscii label := by
    intro c inLabel
    exact of_decide_eq_true (List.all_eq_true.mp (List.all_eq_true.mp ascii label listed) c inLabel)
  cases ip with
  | v4 octets =>
    rcases List.mem_append.mp listed with number | suffix
    · obtain ⟨octet, -, rfl⟩ := List.mem_map.mp number
      intro c isDigit
      rw [Nat.toList_repr] at isDigit
      exact digit (Nat.isDigit_of_mem_toDigits (by omega) (by omega) isDigit)
    · exact fixed ["in-addr", "arpa"] rfl suffix
  | v6 segments =>
    rcases List.mem_append.mp listed with number | suffix
    · obtain ⟨nibble, inOctet, rfl⟩ := List.mem_map.mp number
      obtain ⟨octet, ofAddress, isNibble⟩ := List.mem_flatMap.mp inOctet
      have small : nibble < 16 := by
        obtain ⟨segment, -, isOctet⟩ := List.mem_flatMap.mp (List.mem_reverse.mp ofAddress)
        have wide := segment.toNat_lt
        simp only [List.mem_cons, List.not_mem_nil, or_false] at isOctet isNibble
        omega
      have hex : ∀ n : Fin 16, (Nat.digitChar n).toNat < 128 := by decide
      intro c isDigit
      obtain rfl : c = nibble.digitChar := by simpa using isDigit
      exact hex ⟨nibble, small⟩
    · exact fixed ["ip6", "arpa"] rfl suffix

/-- Labels that read, but for case, as those of a reverse name are those of the reverse name. -/
theorem sameName_of_isReverseOf {text : Label → String} (faithful : AsciiFaithful text)
    {owner : Name} {ip : IpAddr} (isReverse : isReverseOf (labels text owner) ip = true) :
    SameName owner (reverseName ip) := by
  obtain ⟨length, pairs⟩ := (Bool.and_eq_true _ _).mp isReverse
  have sameLength : owner.length = (reverseLabels ip).length := by
    simpa [labels] using length
  refine List.ext_getElem (by simp [reverseName, sameLength]) ?_
  intro i inOwner inReverse
  rw [List.length_map] at inOwner
  have inLabels : i < (reverseLabels ip).length := by omega
  have paired : eqIgnoreAsciiCase (text owner[i]) (reverseLabels ip)[i] = true := by
    refine List.all_eq_true.mp pairs (text owner[i], (reverseLabels ip)[i]) ?_
    refine List.mem_iff_getElem.mpr ⟨i, by simp [labels]; omega, ?_⟩
    simp [labels]
  have ascii := isAscii_reverseLabels (List.getElem_mem inLabels)
  have ownAscii := isAscii_of_eqIgnoreAsciiCase paired ascii
  have bytes := faithful owner[i] ownAscii
  simp only [reverseName, List.getElem_map]
  rw [bytes, lower_asciiBytes ownAscii, lower_asciiBytes ascii, eq_of_beq paired]

section

variable {text : Label → String} {records : List ResourceRecord} {srcIp : IpAddr}

theorem said_claim {rr : ResourceRecord} {rank : Nat} {name : String}
    (heard : said text srcIp rr = .claim rank name) :
    (rr.rdata.address = some srcIp ∧ name = spelled text rr.name) ∨
      ∃ target, rr.rdata = .ptr target ∧ isReverseOf (labels text rr.name) srcIp = true ∧
        name = spelled text target := by
  have ofAddress (heard : (if rr.rdata.address = some srcIp then Said.claim 0 (spelled text rr.name)
      else .nothing) = .claim rank name) :
      rr.rdata.address = some srcIp ∧ name = spelled text rr.name := by
    split at heard
    next own =>
      obtain ⟨-, rfl⟩ := Said.claim.inj heard
      exact ⟨own, rfl⟩
    next => cases heard
  unfold said at heard
  split at heard
  next => split at heard <;> cases heard
  next target data =>
    split at heard
    · split at heard <;> cases heard
    · split at heard
      next isReverse =>
        obtain ⟨-, rfl⟩ := Said.claim.inj heard
        exact .inr ⟨target, data, isReverse, rfl⟩
      next => split at heard <;> cases heard
  next => exact .inl (ofAddress heard)

/-- The message ties the name to its sender: an address record for the sender's address owns it,
or the sender's reverse name points at it. -/
def NamesSender (text : Label → String) (records : List ResourceRecord) (srcIp : IpAddr)
    (name : String) : Prop :=
  ∃ rr ∈ records, (rr.rdata.address = some srcIp ∧ name = spelled text rr.name) ∨
    ∃ target, rr.rdata = .ptr target ∧ SameName rr.name (reverseName srcIp) ∧
      name = spelled text target

theorem hostname_namesSender (faithful : AsciiFaithful text) {name : String}
    (listed : name ∈ (factsOf text records srcIp).hostnames) :
    NamesSender text records srcIp name := by
  obtain ⟨rr, inMessage, rank, heard⟩ := mem_hostnames.mp listed
  refine ⟨rr, inMessage, ?_⟩
  rcases said_claim heard with address | ⟨target, data, isReverse, same⟩
  · exact .inl address
  · exact .inr ⟨target, data, sameName_of_isReverseOf faithful isReverse, same⟩

/-- The addresses a message ties to a name. -/
def tied (records : List ResourceRecord) (name : Name) : List IpAddr :=
  records.filterMap fun rr => if SameName rr.name name then rr.rdata.address else none

/-- The record adds the service to those of the sender. -/
def Serves (text : Label → String) (records : List ResourceRecord) (srcIp : IpAddr)
    (rr : ResourceRecord) (service : String × Option String) : Prop :=
  (said text srcIp rr).served (proxied text records srcIp) = some service

end

def asciiText (label : Label) : String :=
  if label.all (· < 128) then String.ofList (label.map fun b => Char.ofNat b.toNat) else "\uFFFD"

end Mdns
end NetObserver
