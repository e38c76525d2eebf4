import NetObserver.LastSome
import NetObserver.MacFold
import NetObserver.StdText

/-! The OUI registry: a text in the `manuf` format into an index of 24-bit blocks, and the lookup of
a device address in it. -/

namespace NetObserver

namespace OuiDb

structure VendorEntry where
  name : String
  short : Option String
deriving DecidableEq

inductive VendorLookup where
  | vendor (name : String) (short : Option String)
  | randomized
  | unknown
deriving DecidableEq

def addressParts (addr : List Char) : List (List Char) := addr.splitOnP fun c => c == ':' || c == '-'

/-- The first three octets; any more parts are not looked at. -/
def leadingOctets (addr : List Char) : Option (List Nat) :=
  let parts := addressParts addr
  if parts.length < 3 then none else (parts.take 3).mapM hexByte

/-- Lowercase `aa:bb:cc`. -/
def ouiText (octets : List Nat) : String := ":".intercalate (octets.map hexPair)

def extractOui (mac : String) : Option (Nat × String) :=
  (leadingOctets (StdText.trim mac.toList)).map fun octets => (octets.headD 0, ouiText octets)

/-- A mask other than `/24`, or one that is no number, is a sub-block's. -/
def maskPasses (mask : Option (List Char)) : Bool :=
  mask.all fun m => StdText.parseUnsigned 255 (StdText.trim m) == some 24

def plainOctets (token : List Char) : Option (List Nat) :=
  let (addr, mask) := StdText.splitOnce '/' token
  if maskPasses mask then leadingOctets addr else none

def parsePlainOui (token : List Char) : Option (Nat × String) :=
  (plainOctets token).map fun octets => (octets.headD 0, ouiText octets)

/-- The long name where there is one, with the short one beside it. -/
def namesOf (fields : List (List Char)) : Option VendorEntry :=
  let field (i : Nat) := (fields[i]?.filter fun s => !s.isEmpty).map String.ofList
  (field 1).map fun short => (field 2).elim ⟨short, none⟩ fun long => ⟨long, some short⟩

/-- The fields of a line that is neither blank nor a comment. -/
def lineFields (line : List Char) : Option (List (List Char)) :=
  let line := StdText.trim line
  if line.isEmpty || line.head? == some '#' then none
  else some ((line.splitOn '\t').map StdText.trim)

def parseLine (line : List Char) : Option (String × VendorEntry) :=
  (lineFields line).bind fun fields =>
    (fields.head?.bind parsePlainOui).bind fun plain =>
      (namesOf fields).map fun entry => (plain.2, entry)

/-- `by_oui` behind the loader's last line. -/
def load (text : String) : String → Option VendorEntry :=
  (StdText.lines text.toList).foldl
    (fun byOui line => (parseLine line).elim byOui fun entry =>
      Function.update byOui entry.1 (some entry.2)) fun _ => none

def lookup (byOui : String → Option VendorEntry) (mac : String) : VendorLookup :=
  match extractOui mac with
  | none => .unknown
  | some (first, oui) =>
    if first &&& 2 ≠ 0 then .randomized
    else
      match byOui oui with
      | some entry => .vendor entry.name entry.short
      | none => .unknown

/-- The octets of a first field that names a whole block: exactly three, alone or under `/24`, or six
under `/24`. -/
def exactOctets (token : List Char) : Option (List Nat) :=
  let (addr, mask) := StdText.splitOnce '/' token
  let parts := addressParts addr
  if maskPasses mask && (parts.length == 3 || parts.length == 6 && mask.isSome) then
    (parts.mapM hexByte).map (List.take 3)
  else none

/-- The block and the names of a line, its first field read by `read`. -/
def blockBy (read : List Char → Option (List Nat)) (line : List Char) :
    Option (List Nat × VendorEntry) :=
  (lineFields line).bind fun fields =>
    (fields.head?.bind read).bind fun octets => (namesOf fields).map fun entry => (octets, entry)

/-- The last line that names the whole block decides. -/
def Registered (lines : List (List Char)) (octets : List Nat) (entry : VendorEntry) : Prop :=
  ∃ front line back, lines = front ++ line :: back ∧
    blockBy exactOctets line = some (octets, entry) ∧
    ∀ l ∈ back, ∀ e, blockBy exactOctets l ≠ some (octets, e)

/-- The lookup equals the registry. -/
structure LookupRight (text mac : String) : Prop where
  unread : leadingOctets (StdText.trim mac.toList) = none → lookup (load text) mac = .unknown
  randomized : ∀ octets, leadingOctets (StdText.trim mac.toList) = some octets →
    (lookup (load text) mac = .randomized ↔ octets.headD 0 &&& 2 ≠ 0)
  vendor : ∀ octets, leadingOctets (StdText.trim mac.toList) = some octets →
    octets.headD 0 &&& 2 = 0 → ∀ name short, lookup (load text) mac = .vendor name short ↔
      Registered (StdText.lines text.toList) octets ⟨name, short⟩

/-- Three bytes. -/
def IsBlock (octets : List Nat) : Prop := octets.length = 3 ∧ ∀ n ∈ octets, n ≤ 255

theorem isBlock_of_leadingOctets {addr : List Char} {octets : List Nat}
    (read : leadingOctets addr = some octets) : IsBlock octets := by
  unfold leadingOctets at read
  dsimp only at read
  split at read
  next => cases read
  next long =>
    have values := mapM_eq_some_iff.mp read
    have length := congrArg List.length values
    rw [List.length_map, List.length_map, List.length_take] at length
    refine ⟨by omega, fun n mem => ?_⟩
    have listed : some n ∈ octets.map some := List.mem_map_of_mem mem
    rw [← values] at listed
    obtain ⟨part, -, byte⟩ := List.mem_map.mp listed
    exact hexByte_le byte

theorem hexPair_plain {n : Nat} (byte : n ≤ 255) :
    ∀ c ∈ (hexPair n).toList, (c == ':' || c == '-') = false ∧ Dhcp.isWhitespace c = false := by
  have digit : ∀ d < 16, (d.digitChar == ':' || d.digitChar == '-') = false ∧
      Dhcp.isWhitespace d.digitChar = false := by decide
  intro c mem
  rw [hexPair, String.toList_ofList] at mem
  rcases List.mem_pair.mp mem with rfl | rfl
  · exact digit _ (by omega)
  · exact digit _ (by omega)

theorem hexByte_hexPair_nat {n : Nat} (byte : n ≤ 255) : hexByte (hexPair n).toList = some n := by
  have size : UInt8.size = 256 := rfl
  have read := hexByte_hexPair (UInt8.ofNat n)
  rwa [UInt8.toNat_ofNat_of_lt' (by omega)] at read

theorem toList_ouiText (a b c : Nat) :
    (ouiText [a, b, c]).toList =
      (hexPair a).toList ++ ':' :: ((hexPair b).toList ++ ':' :: (hexPair c).toList) := by
  have colon : (":" : String).toList = [':'] := rfl
  rw [ouiText, String.toList_intercalate, colon]
  simp [List.intercalate, List.intersperse]

theorem leadingOctets_ouiText {octets : List Nat} (block : IsBlock octets) :
    leadingOctets (ouiText octets).toList = some octets := by
  obtain ⟨length, bytes⟩ := block
  obtain ⟨a, b, c, rfl⟩ := List.length_eq_three.mp length
  have byteA := bytes a (by simp)
  have byteB := bytes b (by simp)
  have byteC := bytes c (by simp)
  have parts : addressParts (ouiText [a, b, c]).toList =
      [(hexPair a).toList, (hexPair b).toList, (hexPair c).toList] := by
    rw [addressParts, toList_ouiText, List.splitOnP_append_cons _ _ rfl,
      List.splitOnP_append_cons _ _ rfl,
      List.splitOnP_eq_singleton fun x mem => (hexPair_plain byteA x mem).1,
      List.splitOnP_eq_singleton fun x mem => (hexPair_plain byteB x mem).1,
      List.splitOnP_eq_singleton fun x mem => (hexPair_plain byteC x mem).1]
    rfl
  unfold leadingOctets
  rw [parts]
  have values : [(hexPair a).toList, (hexPair b).toList, (hexPair c).toList].mapM hexByte =
      some [a, b, c] := by
    rw [mapM_eq_some_iff]
    simp [hexByte_hexPair_nat byteA, hexByte_hexPair_nat byteB, hexByte_hexPair_nat byteC]
  exact values

theorem trim_ouiText {octets : List Nat} (block : IsBlock octets) :
    StdText.trim (ouiText octets).toList = (ouiText octets).toList := by
  obtain ⟨length, bytes⟩ := block
  obtain ⟨a, b, c, rfl⟩ := List.length_eq_three.mp length
  refine StdText.trim_eq_self fun x mem => ?_
  rw [toList_ouiText] at mem
  simp only [List.mem_append, List.mem_cons] at mem
  rcases mem with inA | rfl | inB | rfl | inC
  · exact (hexPair_plain (bytes a (by simp)) x inA).2
  · rfl
  · exact (hexPair_plain (bytes b (by simp)) x inB).2
  · rfl
  · exact (hexPair_plain (bytes c (by simp)) x inC).2

theorem ouiText_injective {octets octets' : List Nat} (block : IsBlock octets)
    (block' : IsBlock octets') (same : ouiText octets = ouiText octets') : octets = octets' := by
  have read := leadingOctets_ouiText block
  rw [same, leadingOctets_ouiText block'] at read
  exact (Option.some.inj read).symm

/-- What the last line of a block says of it, the lines' first fields read by `read`. -/
def lastEntry (read : List Char → Option (List Nat)) (octets : List Nat)
    (lines : List (List Char)) : Option VendorEntry :=
  LastSome.lastSome? (fun line => (blockBy read line).bind fun block =>
    if block.1 = octets then some block.2 else none) lines

theorem block_entry_iff {read : List Char → Option (List Nat)} {octets : List Nat}
    {line : List Char} {entry : VendorEntry} :
    ((blockBy read line).bind fun block => if block.1 = octets then some block.2 else none) =
      some entry ↔ blockBy read line = some (octets, entry) := by
  rw [Option.bind_eq_some_iff]
  constructor
  · rintro ⟨⟨octets', entry'⟩, named, same⟩
    split at same
    next here =>
      cases same
      rw [named, ← here]
    next => cases same
  · intro named
    exact ⟨(octets, entry), named, if_pos rfl⟩

theorem block_entry_none_iff {read : List Char → Option (List Nat)} {octets : List Nat}
    {line : List Char} :
    ((blockBy read line).bind fun block => if block.1 = octets then some block.2 else none) = none ↔
      ∀ entry, blockBy read line ≠ some (octets, entry) := by
  rw [Option.eq_none_iff_forall_ne_some]
  exact forall_congr' fun entry => not_congr block_entry_iff

theorem lastEntry_eq_some_iff {read : List Char → Option (List Nat)} {octets : List Nat}
    {lines : List (List Char)} {entry : VendorEntry} :
    lastEntry read octets lines = some entry ↔
      ∃ front line back, lines = front ++ line :: back ∧ blockBy read line = some (octets, entry) ∧
        ∀ l ∈ back, ∀ e, blockBy read l ≠ some (octets, e) := by
  rw [lastEntry, LastSome.lastSome?_eq_some_iff]
  simp only [block_entry_iff, block_entry_none_iff]

theorem lastEntry_exact_iff {octets : List Nat} {lines : List (List Char)} {entry : VendorEntry} :
    lastEntry exactOctets octets lines = some entry ↔ Registered lines octets entry :=
  lastEntry_eq_some_iff

/-- A first field that names a whole block is read as that block. -/
theorem plainOctets_of_exact {token : List Char} {octets : List Nat}
    (named : exactOctets token = some octets) : plainOctets token = some octets := by
  unfold exactOctets at named
  unfold plainOctets
  dsimp only at named ⊢
  split at named
  next shape =>
    rw [Bool.and_eq_true] at shape
    obtain ⟨values, read, rfl⟩ := Option.map_eq_some_iff.mp named
    have long : 3 ≤ (addressParts (StdText.splitOnce '/' token).1).length := by
      rcases (Bool.or_eq_true _ _).mp shape.2 with three | six
      · rw [beq_iff_eq] at three
        omega
      · rw [Bool.and_eq_true, beq_iff_eq] at six
        omega
    rw [if_pos shape.1]
    unfold leadingOctets
    dsimp only
    rw [if_neg (by omega), mapM_eq_some_iff, List.map_take, List.map_take,
      mapM_eq_some_iff.mp read]
  next => cases named

theorem blockBy_plain_of_exact {line : List Char} {block : List Nat × VendorEntry}
    (named : blockBy exactOctets line = some block) : blockBy plainOctets line = some block := by
  obtain ⟨fields, split, named⟩ := Option.bind_eq_some_iff.mp named
  obtain ⟨octets, first, named⟩ := Option.bind_eq_some_iff.mp named
  obtain ⟨token, head, read⟩ := Option.bind_eq_some_iff.mp first
  unfold blockBy
  rw [split, Option.bind_some, head, Option.bind_some, plainOctets_of_exact read]
  exact named

theorem isBlock_of_blockBy {line : List Char} {octets : List Nat} {entry : VendorEntry}
    (named : blockBy plainOctets line = some (octets, entry)) : IsBlock octets := by
  obtain ⟨fields, -, named⟩ := Option.bind_eq_some_iff.mp named
  obtain ⟨octets', first, named⟩ := Option.bind_eq_some_iff.mp named
  obtain ⟨token, -, read⟩ := Option.bind_eq_some_iff.mp first
  obtain ⟨_, -, same⟩ := Option.map_eq_some_iff.mp named
  cases same
  unfold plainOctets at read
  dsimp only at read
  split at read
  next => exact isBlock_of_leadingOctets read
  next => cases read

theorem parseLine_eq (line : List Char) :
    parseLine line = (blockBy plainOctets line).map fun block => (ouiText block.1, block.2) := by
  unfold parseLine blockBy parsePlainOui
  cases lineFields line with
  | none => rfl
  | some fields =>
    rw [Option.bind_some, Option.bind_some]
    cases fields.head? with
    | none => rfl
    | some token =>
      rw [Option.bind_some, Option.bind_some]
      cases plainOctets token with
      | none => rfl
      | some octets =>
        rw [Option.map_some, Option.bind_some, Option.bind_some, Option.map_map]
        rfl

/-- The index holds what the last line read as a block says of it. -/
theorem load_eq (text : String) {octets : List Nat} (block : IsBlock octets) :
    load text (ouiText octets) = lastEntry plainOctets octets (StdText.lines text.toList) := by
  unfold load lastEntry
  generalize StdText.lines text.toList = lines
  induction lines using List.reverseRecOn with
  | nil => rfl
  | append_singleton lines line ih =>
    rw [List.foldl_concat, LastSome.lastSome?_concat, parseLine_eq]
    cases named : blockBy plainOctets line with
    | none => exact ih
    | some other =>
      rw [Option.map_some, Option.elim_some, Option.bind_some]
      dsimp only
      by_cases same : other.1 = octets
      · rw [same, Function.update_self, if_pos rfl]
        rfl
      · have apart : ouiText octets ≠ ouiText other.1 := fun texts =>
          same (ouiText_injective block (isBlock_of_blockBy named) texts).symm
        rw [Function.update_of_ne apart, if_neg same]
        exact ih

/-- A line read as a block that it does not name whole, and behind which no line is read as that
block, repeats what the last line to name the block whole says. -/
def LooseLinesRepeat (lines : List (List Char)) : Prop :=
  ∀ front line back octets entry, lines = front ++ line :: back →
    blockBy plainOctets line = some (octets, entry) → blockBy exactOctets line = none →
    (∀ l ∈ back, ∀ e, blockBy plainOctets l ≠ some (octets, e)) → octets.headD 0 &&& 2 = 0 →
    Registered front octets entry

theorem looseLinesRepeat_iff {lines : List (List Char)} :
    LooseLinesRepeat lines ↔ ∀ octets, octets.headD 0 &&& 2 = 0 →
      lastEntry plainOctets octets lines = lastEntry exactOctets octets lines := by
  constructor
  · intro repeat_ octets global
    cases last : lastEntry plainOctets octets lines with
    | none =>
      refine (LastSome.lastSome?_eq_none_iff.mpr fun line mem => ?_).symm
      have silent := block_entry_none_iff.mp (LastSome.lastSome?_eq_none_iff.mp last line mem)
      exact block_entry_none_iff.mpr fun e named => silent e (blockBy_plain_of_exact named)
    | some entry =>
      obtain ⟨front, line, back, split, read, silent⟩ := lastEntry_eq_some_iff.mp last
      have behind : ∀ l ∈ back, ∀ e, blockBy exactOctets l ≠ some (octets, e) :=
        fun l mem e named => silent l mem e (blockBy_plain_of_exact named)
      refine (lastEntry_exact_iff.mpr ?_).symm
      cases named : blockBy exactOctets line with
      | none =>
        obtain ⟨front', line', back', split', named', silent'⟩ :=
          repeat_ front line back octets entry split read named silent global
        refine ⟨front', line', back' ++ line :: back, ?_, named', fun l mem e => ?_⟩
        · rw [split, split', List.append_assoc]
          rfl
        · rcases List.mem_append.mp mem with between | rest
          · exact silent' l between e
          · rcases List.mem_cons.mp rest with rfl | after
            · rw [named]
              exact fun same => by cases same
            · exact behind l after e
      | some block =>
        have same := blockBy_plain_of_exact named
        rw [read] at same
        cases same
        exact ⟨front, line, back, split, named, behind⟩
  · intro agree front line back octets entry split read loose silent global
    have last : lastEntry plainOctets octets lines = some entry :=
      lastEntry_eq_some_iff.mpr ⟨front, line, back, split, read, silent⟩
    rw [agree octets global, split] at last
    have quiet : lastEntry exactOctets octets back = none :=
      LastSome.lastSome?_eq_none_iff.mpr fun l mem => block_entry_none_iff.mpr fun e named =>
        silent l mem e (blockBy_plain_of_exact named)
    unfold lastEntry at last quiet
    rw [LastSome.lastSome?_append, LastSome.lastSome?_cons, quiet, loose] at last
    exact lastEntry_exact_iff.mp last

theorem lookup_eq {text mac : String} {octets : List Nat}
    (read : leadingOctets (StdText.trim mac.toList) = some octets) :
    lookup (load text) mac =
      if octets.headD 0 &&& 2 ≠ 0 then .randomized
      else (lastEntry plainOctets octets (StdText.lines text.toList)).elim .unknown fun entry =>
        .vendor entry.name entry.short := by
  unfold lookup extractOui
  rw [read, Option.map_some]
  dsimp only
  rw [load_eq text (isBlock_of_leadingOctets read)]
  split
  next => rfl
  next =>
    cases lastEntry plainOctets octets (StdText.lines text.toList) with
    | none => rfl
    | some entry => rfl

theorem elim_vendor_iff {found : Option VendorEntry} {entry : VendorEntry} :
    (found.elim .unknown fun e => VendorLookup.vendor e.name e.short) =
      .vendor entry.name entry.short ↔ found = some entry := by
  cases found with
  | none => exact iff_of_false (fun same => by cases same) (fun same => by cases same)
  | some other =>
    rw [Option.elim_some, VendorLookup.vendor.injEq, Option.some.injEq]
    constructor
    · intro same
      cases other
      cases entry
      rw [VendorEntry.mk.injEq]
      exact same
    · rintro rfl
      exact ⟨rfl, rfl⟩

/-- Every lookup equals the registry exactly when no line for less than a block, the last that is
read as the block, changes what is registered for it. -/
theorem lookup_right_iff (text : String) :
    (∀ mac, LookupRight text mac) ↔ LooseLinesRepeat (StdText.lines text.toList) := by
  rw [looseLinesRepeat_iff]
  constructor
  · intro right octets global
    by_cases block : IsBlock octets
    · have read : leadingOctets (StdText.trim (ouiText octets).toList) = some octets := by
        rw [trim_ouiText block, leadingOctets_ouiText block]
      have vendor := (right (ouiText octets)).vendor octets read global
      rw [lookup_eq read, if_neg (by simpa using global)] at vendor
      refine Option.ext fun entry => ?_
      rw [lastEntry_exact_iff, ← elim_vendor_iff]
      exact vendor entry.name entry.short
    · have silent {read : List Char → Option (List Nat)}
          (sound : ∀ line block, blockBy read line = some block →
            blockBy plainOctets line = some block) :
          lastEntry read octets (StdText.lines text.toList) = none := by
        refine LastSome.lastSome?_eq_none_iff.mpr fun line _ => ?_
        exact block_entry_none_iff.mpr fun e named =>
          block (isBlock_of_blockBy (sound line _ named))
      rw [silent fun line block named => named, silent fun line block => blockBy_plain_of_exact]
  · intro agree mac
    refine ⟨?_, ?_, ?_⟩
    · intro unread
      unfold lookup extractOui
      rw [unread]
      rfl
    · intro octets read
      rw [lookup_eq read]
      split
      next bit => exact iff_of_true rfl bit
      next clear =>
        refine iff_of_false (fun same => ?_) clear
        cases last : lastEntry plainOctets octets (StdText.lines text.toList) with
        | none =>
          rw [last] at same
          cases same
        | some entry =>
          rw [last] at same
          cases same
    · intro octets read global name short
      rw [lookup_eq read, if_neg (by simpa using global), agree octets global, ← lastEntry_exact_iff]
      exact @elim_vendor_iff _ ⟨name, short⟩

/-- A sub-block of 28 bits in its full spelling, without its mask. -/
theorem sub_block_takes_the_block :
    lookup (load "3C:5A:B4:D0:00:00\tGoogleSub") "3c:5a:b4:11:22:33" = .vendor "GoogleSub" none ∧
      ¬ LookupRight "3C:5A:B4:D0:00:00\tGoogleSub" "3c:5a:b4:11:22:33" := by
  have lines : StdText.lines "3C:5A:B4:D0:00:00\tGoogleSub".toList =
      ["3C:5A:B4:D0:00:00\tGoogleSub".toList] := by decide
  have loose : blockBy exactOctets "3C:5A:B4:D0:00:00\tGoogleSub".toList = none := by decide
  have indexed : blockBy plainOctets "3C:5A:B4:D0:00:00\tGoogleSub".toList =
      some ([60, 90, 180], ⟨"GoogleSub", none⟩) := by decide
  have read : leadingOctets (StdText.trim "3c:5a:b4:11:22:33".toList) = some [60, 90, 180] := by
    decide
  have found : lookup (load "3C:5A:B4:D0:00:00\tGoogleSub") "3c:5a:b4:11:22:33" =
      .vendor "GoogleSub" none := by
    rw [lookup_eq read, lines, lastEntry, LastSome.lastSome?_singleton, indexed]
    rfl
  refine ⟨found, fun right => ?_⟩
  have vendor := right.vendor [60, 90, 180] read (by decide) "GoogleSub" none
  have registered := vendor.mp found
  obtain ⟨front, line, back, split, named, -⟩ := registered
  have one : line ∈ front ++ line :: back := List.mem_append_right _ List.mem_cons_self
  rw [← split, lines] at one
  rw [List.mem_singleton.mp one, loose] at named
  cases named

end OuiDb

end NetObserver
