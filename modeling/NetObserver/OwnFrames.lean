import Mathlib.Algebra.BigOperators.Group.List.Basic
import NetObserver.PcapCuts

/-! The machine's own frames, counted over the files of the ring. -/

namespace NetObserver

/-- What lax slicing tells of a frame's link layer. -/
inductive LinkSlice where
  | ethernet2 (source : MacAddr)
  | other

inductive LaxNetSlice where
  | ipv4
  | ipv6
  | arp

inductive TransportSlice where
  | icmpv4 (echoRequest : Bool)
  | icmpv6 (echoRequest : Bool)
  | udp (sourcePort destinationPort : UInt16)
  | tcp

structure LaxSlicedPacket where
  link : Option LinkSlice
  net : Option LaxNetSlice
  transport : Option TransportSlice

def dhcpPorts : List UInt16 := [67, 68]

/-- The bucket of a frame that `ownMac` sent; none for a frame from anyone else. -/
def classify (fromEthernet : List UInt8 → Option LaxSlicedPacket) (bytes : List UInt8)
    (ownMac : MacAddr) : Option Bucket :=
  match fromEthernet bytes with
  | none => none
  | some sliced =>
    match sliced.link with
    | some (.ethernet2 src) =>
      if src ≠ ownMac then none
      else
        match sliced.net with
        | some .arp => some .arp
        | _ =>
          some <| match sliced.transport with
            | some (.icmpv4 true) => .icmpEcho
            | some (.icmpv6 true) => .icmpEcho
            | some (.udp source destination) =>
              if source ∈ dhcpPorts ∨ destination ∈ dhcpPorts then .dhcp else .other
            | _ => .other
    | _ => none

/-- A frame with an Ethernet header that names this source. -/
def SentBy (mac : MacAddr) (bytes : List UInt8) : Prop :=
  14 ≤ bytes.length ∧ (bytes.drop 6).take 6 = mac.toList

instance (mac : MacAddr) (bytes : List UInt8) : Decidable (SentBy mac bytes) :=
  inferInstanceAs (Decidable (_ ∧ _))

/-- Slicing from the Ethernet header on: it fails only for want of that header, whose source are
the six octets behind the destination. -/
structure SlicesEthernet (fromEthernet : List UInt8 → Option LaxSlicedPacket) : Prop where
  short : ∀ bytes, bytes.length < 14 → fromEthernet bytes = none
  sliced : ∀ bytes, 14 ≤ bytes.length → ∃ packet source, fromEthernet bytes = some packet ∧
    packet.link = some (.ethernet2 source) ∧ source.toList = (bytes.drop 6).take 6

namespace OwnFrames

def minOpt : Option Int → Option Int → Option Int
  | some a, some b => some (min a b)
  | a, b => a.or b

def maxOpt : Option Int → Option Int → Option Int
  | some a, some b => some (max a b)
  | a, b => a.or b

def ownTotal (o : OwnFrames) : Nat := o.icmpEcho + o.arp + o.dhcp + o.other

/-- A second slice's counts folded into these. -/
def absorb (o other : OwnFrames) : OwnFrames where
  records := o.records + other.records
  earliestUs := minOpt o.earliestUs other.earliestUs
  latestUs := maxOpt o.latestUs other.latestUs
  truncated := o.truncated || other.truncated
  inWindow := o.inWindow + other.inWindow
  icmpEcho := o.icmpEcho + other.icmpEcho
  firstEchoUs := minOpt o.firstEchoUs other.firstEchoUs
  lastEchoUs := maxOpt o.lastEchoUs other.lastEchoUs
  arp := o.arp + other.arp
  dhcp := o.dhcp + other.dhcp
  other := o.other + other.other

end OwnFrames

/-- One file of the ring; its error is named after its path. -/
def countFile (openFile : String → Except String Reader)
    (classify : List UInt8 → MacAddr → Option Bucket) (mac : MacAddr) (startUs endUs : Int)
    (path : String) : Except String OwnFrames := do
  let file ← (openFile path).mapError fun e => path ++ ": " ++ e
  (countOwnFrames classify (.new file) mac startUs endUs).mapError fun e =>
    path ++ ": " ++ e.message

/-- The fold of the ring's files into one count; `quoted` is how a text is printed for
debugging. -/
def countSlice (openFile : String → Except String Reader)
    (classify : List UInt8 → MacAddr → Option Bucket) (quoted : String → String)
    (paths : List String) (ownMac : Option String) (startUs endUs : Int) :
    Except String OwnFrames := do
  let mac ← match ownMac with
    | none => .ok unset
    | some text =>
      match macOctets text with
      | none => .error ("own MAC " ++ quoted text ++ " is not six octets")
      | some mac => .ok mac
  paths.foldlM (fun total path => do
    let counted ← countFile openFile classify mac startUs endUs path
    .ok (total.absorb counted)) .empty

namespace OwnFrames

variable {a b c : Option Int} {x y z : OwnFrames}

theorem minOpt_eq_merge (a b : Option Int) : minOpt a b = a.merge min b := by
  cases a <;> cases b <;> rfl

theorem maxOpt_eq_merge (a b : Option Int) : maxOpt a b = a.merge max b := by
  cases a <;> cases b <;> rfl

@[simp] theorem minOpt_none_left : minOpt none a = a := by
  rw [minOpt_eq_merge, Option.merge_none_left]

@[simp] theorem minOpt_none_right : minOpt a none = a := by
  rw [minOpt_eq_merge, Option.merge_none_right]

@[simp] theorem maxOpt_none_left : maxOpt none a = a := by
  rw [maxOpt_eq_merge, Option.merge_none_left]

@[simp] theorem maxOpt_none_right : maxOpt a none = a := by
  rw [maxOpt_eq_merge, Option.merge_none_right]

theorem minOpt_comm : minOpt a b = minOpt b a := by
  rw [minOpt_eq_merge, minOpt_eq_merge]
  exact Std.Commutative.comm a b

theorem maxOpt_comm : maxOpt a b = maxOpt b a := by
  rw [maxOpt_eq_merge, maxOpt_eq_merge]
  exact Std.Commutative.comm a b

theorem minOpt_assoc : minOpt (minOpt a b) c = minOpt a (minOpt b c) := by
  simp only [minOpt_eq_merge]
  exact Std.Associative.assoc a b c

theorem maxOpt_assoc : maxOpt (maxOpt a b) c = maxOpt a (maxOpt b c) := by
  simp only [maxOpt_eq_merge]
  exact Std.Associative.assoc a b c

theorem absorb_assoc : (x.absorb y).absorb z = x.absorb (y.absorb z) := by
  unfold absorb
  simp only [Nat.add_assoc, minOpt_assoc, maxOpt_assoc, Bool.or_assoc]

theorem absorb_comm : x.absorb y = y.absorb x := by
  unfold absorb
  simp only [Nat.add_comm, minOpt_comm, maxOpt_comm, Bool.or_comm]

theorem empty_absorb : empty.absorb x = x := by
  unfold absorb empty
  simp only [Nat.zero_add, minOpt_none_left, maxOpt_none_left, Bool.false_or]

theorem absorb_empty : x.absorb empty = x := by rw [absorb_comm, empty_absorb]

instance : Zero OwnFrames := ⟨empty⟩

instance : Add OwnFrames := ⟨absorb⟩

/-- Counts form a monoid, so that a sum of them does not depend on how it is put together. -/
instance : AddCommMonoid OwnFrames where
  add_assoc _ _ _ := absorb_assoc
  zero_add _ := empty_absorb
  add_zero _ := absorb_empty
  add_comm _ _ := absorb_comm
  nsmul := nsmulRec

theorem earlier_eq (tsUs : Int) (known : Option Int) :
    earlier tsUs known = minOpt known (some tsUs) := by
  cases known <;> rfl

theorem latest_eq (tsUs : Int) (known : Option Int) :
    latest tsUs known = maxOpt known (some tsUs) := by
  cases known <;> rfl

/-- A record's share does not depend on what was counted before it. -/
theorem tally_eq (startUs endUs : Int) (out : OwnFrames) (record : Record)
    (bucket : Option Bucket) :
    tally startUs endUs out record bucket = out + tally startUs endUs 0 record bucket := by
  change _ = out.absorb (tally startUs endUs empty record bucket)
  unfold tally
  split
  next =>
    unfold absorb empty
    simp only [earlier_eq, latest_eq, minOpt_none_left, maxOpt_none_left, minOpt_none_right,
      maxOpt_none_right, Bool.or_false, Nat.add_zero, Nat.zero_add]
  next =>
    rcases bucket with _ | _ | _ | _ | _ <;>
    · unfold countBucket absorb empty
      simp only [earlier_eq, latest_eq, minOpt_none_left, maxOpt_none_left, minOpt_none_right,
        maxOpt_none_right, Bool.or_false, Nat.add_zero, Nat.zero_add]

end OwnFrames

section

variable (classify : List UInt8 → MacAddr → Option Bucket) (ownMac : MacAddr) (startUs endUs : Int)

/-- The counts over a list of records. -/
def countRecords (records : List Record) : OwnFrames :=
  records.foldl (fun out record =>
    out.tally startUs endUs record (classify record.data ownMac)) .empty

theorem countRecords_eq_sum (records : List Record) :
    countRecords classify ownMac startUs endUs records = (records.map fun record =>
      OwnFrames.tally startUs endUs 0 record (classify record.data ownMac)).sum := by
  have from_ (out : OwnFrames) : records.foldl (fun out record =>
      out.tally startUs endUs record (classify record.data ownMac)) out =
      out + (records.map fun record =>
        OwnFrames.tally startUs endUs 0 record (classify record.data ownMac)).sum := by
    induction records generalizing out with
    | nil => rw [List.foldl_nil, List.map_nil, List.sum_nil, add_zero]
    | cons record records ih =>
      rw [List.foldl_cons, ih, OwnFrames.tally_eq, List.map_cons, List.sum_cons, add_assoc]
  exact (from_ 0).trans (zero_add _)

theorem countRecords_append (xs ys : List Record) :
    countRecords classify ownMac startUs endUs (xs ++ ys) =
      countRecords classify ownMac startUs endUs xs +
        countRecords classify ownMac startUs endUs ys := by
  rw [countRecords_eq_sum, List.map_append, List.sum_append, ← countRecords_eq_sum,
    ← countRecords_eq_sum]

theorem countRecords_perm {xs ys : List Record} (perm : xs.Perm ys) :
    countRecords classify ownMac startUs endUs xs =
      countRecords classify ownMac startUs endUs ys := by
  rw [countRecords_eq_sum, countRecords_eq_sum]
  exact (perm.map _).sum_eq

end

deriving instance DecidableEq for Bucket

/-- A stamp inside the window, its ends included. -/
def Record.within (startUs endUs : Int) (r : Record) : Bool :=
  decide (startUs ≤ r.tsUs) && decide (r.tsUs ≤ endUs)

def OwnFrames.inBucket (o : OwnFrames) : Bucket → Nat
  | .icmpEcho => o.icmpEcho
  | .arp => o.arp
  | .dhcp => o.dhcp
  | .other => o.other

/-- The counts say of the records exactly what they should: each field is a count, a least or a
greatest stamp of the records it is about. -/
structure CountsOf (bucketOf : List UInt8 → Option Bucket) (startUs endUs : Int)
    (records : List Record) (o : OwnFrames) : Prop where
  length : o.records = records.length
  earliest : o.earliestUs = (records.map Record.tsUs).min?
  latest : o.latestUs = (records.map Record.tsUs).max?
  inWindow : o.inWindow = records.countP (Record.within startUs endUs)
  buckets : ∀ b, o.inBucket b =
    records.countP fun r => r.within startUs endUs && bucketOf r.data == some b
  ownTotal : o.ownTotal =
    records.countP fun r => r.within startUs endUs && (bucketOf r.data).isSome
  firstEcho : o.firstEchoUs = ((records.filter fun r =>
    r.within startUs endUs && bucketOf r.data == some .icmpEcho).map Record.tsUs).min?
  lastEcho : o.lastEchoUs = ((records.filter fun r =>
    r.within startUs endUs && bucketOf r.data == some .icmpEcho).map Record.tsUs).max?

namespace OwnFrames

variable {startUs endUs : Int} {record : Record} {bucket : Option Bucket} {o : OwnFrames}

theorem minOpt_cons (t : Int) (ts : List Int) : minOpt (some t) ts.min? = (t :: ts).min? := by
  rw [List.min?_cons]
  cases ts.min? <;> rfl

theorem maxOpt_cons (t : Int) (ts : List Int) : maxOpt (some t) ts.max? = (t :: ts).max? := by
  rw [List.max?_cons]
  cases ts.max? <;> rfl

/-- What one record adds to counts, its bucket told. -/
theorem tally_add (startUs endUs : Int) (record : Record) (bucket : Option Bucket)
    (o : OwnFrames) : tally startUs endUs 0 record bucket + o =
      { records := 1 + o.records
        earliestUs := minOpt (some record.tsUs) o.earliestUs
        latestUs := maxOpt (some record.tsUs) o.latestUs
        truncated := o.truncated
        inWindow := (if record.within startUs endUs then 1 else 0) + o.inWindow
        icmpEcho := (if record.within startUs endUs && bucket == some .icmpEcho then 1 else 0) +
          o.icmpEcho
        firstEchoUs := minOpt (if record.within startUs endUs && bucket == some .icmpEcho
          then some record.tsUs else none) o.firstEchoUs
        lastEchoUs := maxOpt (if record.within startUs endUs && bucket == some .icmpEcho
          then some record.tsUs else none) o.lastEchoUs
        arp := (if record.within startUs endUs && bucket == some .arp then 1 else 0) + o.arp
        dhcp := (if record.within startUs endUs && bucket == some .dhcp then 1 else 0) + o.dhcp
        other := (if record.within startUs endUs && bucket == some .other then 1 else 0) +
          o.other } := by
  have inside : record.within startUs endUs = true ↔
      ¬ (record.tsUs < startUs ∨ endUs < record.tsUs) := by
    unfold Record.within
    rw [Bool.and_eq_true, decide_eq_true_iff, decide_eq_true_iff]
    omega
  change (tally startUs endUs empty record bucket).absorb o = _
  unfold tally
  split
  next outside =>
    have not_ : record.within startUs endUs = false := by
      rw [← Bool.not_eq_true, inside, not_not]
      exact outside
    rw [not_]
    unfold absorb empty
    simp [earlier, latest]
  next within_ =>
    rw [inside.mpr within_]
    rcases bucket with _ | _ | _ | _ | _ <;>
    · unfold countBucket absorb empty
      simp [earlier, latest]

end OwnFrames

section

variable {classify : List UInt8 → MacAddr → Option Bucket} {ownMac : MacAddr} {startUs endUs : Int}

theorem countRecords_cons (r : Record) (rs : List Record) :
    countRecords classify ownMac startUs endUs (r :: rs) =
      OwnFrames.tally startUs endUs 0 r (classify r.data ownMac) +
        countRecords classify ownMac startUs endUs rs := by
  rw [countRecords_eq_sum, List.map_cons, List.sum_cons, ← countRecords_eq_sum]

theorem countsOf_countRecords (records : List Record) :
    CountsOf (classify · ownMac) startUs endUs records
      (countRecords classify ownMac startUs endUs records) := by
  induction records with
  | nil =>
    constructor <;> try rfl
    intro b
    cases b <;> rfl
  | cons r rs ih =>
    rw [countRecords_cons, OwnFrames.tally_add]
    constructor
    case length => exact (Nat.add_comm 1 _).trans (congrArg (· + 1) ih.length)
    case earliest => exact (congrArg _ ih.earliest).trans (OwnFrames.minOpt_cons _ _)
    case latest => exact (congrArg _ ih.latest).trans (OwnFrames.maxOpt_cons _ _)
    case inWindow =>
      rw [List.countP_cons, ← ih.inWindow]
      exact Nat.add_comm _ _
    case buckets =>
      intro b
      rw [List.countP_cons, ← ih.buckets b]
      cases b <;> exact Nat.add_comm _ _
    case ownTotal =>
      rw [List.countP_cons, ← ih.ownTotal]
      unfold OwnFrames.ownTotal
      dsimp only
      cases r.within startUs endUs with
      | false => simp
      | true =>
        rcases classify r.data ownMac with _ | _ | _ | _ | _ <;> simp <;> omega
    case firstEcho =>
      dsimp only
      rw [ih.firstEcho, List.filter_cons]
      split
      next => exact OwnFrames.minOpt_cons _ _
      next => exact OwnFrames.minOpt_none_left
    case lastEcho =>
      dsimp only
      rw [ih.lastEcho, List.filter_cons]
      split
      next => exact OwnFrames.maxOpt_cons _ _
      next => exact OwnFrames.maxOpt_none_left

end

/-- The bounds that counts keep, whatever was counted. -/
structure WithinBounds (startUs endUs : Int) (o : OwnFrames) : Prop where
  own_le : o.ownTotal ≤ o.inWindow
  window_le : o.inWindow ≤ o.records
  first_present : o.firstEchoUs.isSome ↔ 0 < o.icmpEcho
  last_present : o.lastEchoUs.isSome ↔ 0 < o.icmpEcho
  in_order : ∀ first last, o.firstEchoUs = some first → o.lastEchoUs = some last →
    startUs ≤ first ∧ first ≤ last ∧ last ≤ endUs

theorem CountsOf.withinBounds {bucketOf : List UInt8 → Option Bucket} {startUs endUs : Int}
    {records : List Record} {o : OwnFrames} (counts : CountsOf bucketOf startUs endUs records o) :
    WithinBounds startUs endUs o := by
  have echoes : 0 < o.icmpEcho ↔ (records.filter fun r =>
      r.within startUs endUs && bucketOf r.data == some .icmpEcho).map Record.tsUs ≠ [] := by
    have number : o.icmpEcho = _ := counts.buckets .icmpEcho
    rw [number, List.countP_eq_length_filter, List.length_pos_iff, ne_eq, ne_eq, List.map_eq_nil_iff]
  constructor
  case own_le =>
    rw [counts.ownTotal, counts.inWindow]
    apply List.countP_mono_left
    intro r _ own
    exact (Bool.and_eq_true _ _ ▸ own).1
  case window_le =>
    rw [counts.inWindow, counts.length]
    exact List.countP_le_length
  case first_present => rw [counts.firstEcho, List.isSome_min?_iff, echoes]
  case last_present => rw [counts.lastEcho, List.isSome_max?_iff, echoes]
  case in_order =>
    intro first last low high
    rw [counts.firstEcho] at low
    rw [counts.lastEcho] at high
    have inside {t : Int} (mem : t ∈ (records.filter fun r =>
        r.within startUs endUs && bucketOf r.data == some .icmpEcho).map Record.tsUs) :
        startUs ≤ t ∧ t ≤ endUs := by
      obtain ⟨r, held, rfl⟩ := List.mem_map.mp mem
      have own := (List.mem_filter.mp held).2
      simp only [Record.within, Bool.and_eq_true, decide_eq_true_iff] at own
      exact own.1
    have held := List.max?_mem high
    exact ⟨(inside (List.min?_mem low)).1, (List.min?_eq_some_iff.mp low).2 last held,
      (inside held).2⟩

section

variable {fromEthernet : List UInt8 → Option LaxSlicedPacket} {ownMac : MacAddr}
  {bytes : List UInt8}

theorem SlicesEthernet.isSome_classify (ethernet : SlicesEthernet fromEthernet) :
    (classify fromEthernet bytes ownMac).isSome ↔ SentBy ownMac bytes := by
  unfold classify SentBy
  by_cases short : bytes.length < 14
  · rw [ethernet.short bytes short]
    simp
    omega
  · obtain ⟨packet, source, sliced, link, octets⟩ := ethernet.sliced bytes (by omega)
    rw [sliced]
    dsimp only
    rw [link]
    dsimp only
    have same : (bytes.drop 6).take 6 = ownMac.toList ↔ source = ownMac := by
      rw [← octets, Vector.toList_inj]
    rw [same]
    split
    next apart => simp [apart]
    next own =>
      rw [not_not] at own
      have long : 14 ≤ bytes.length := by omega
      split <;> simp [own, long]

/-- A frame of the machine's own is in one bucket, and a frame of anyone else in none. -/
theorem SlicesEthernet.existsUnique_bucket (ethernet : SlicesEthernet fromEthernet) :
    SentBy ownMac bytes ↔ ∃! bucket, classify fromEthernet bytes ownMac = some bucket := by
  rw [← ethernet.isSome_classify, Option.isSome_iff_exists]
  constructor
  · rintro ⟨bucket, held⟩
    exact ⟨bucket, held, fun second also => Option.some.inj (also.symm.trans held)⟩
  · rintro ⟨bucket, held, _⟩
    exact ⟨bucket, held⟩

end

/-- What a file of the ring reads as: its records, and whether it ends in the midst of one. -/
def ringFile (openFile : String → Except String Reader) (path : String) :
    Option (List Record × Bool) :=
  match openFile path with
  | .error _ => none
  | .ok file =>
    match (PcapStream.new file).readAll with
    | (records, none) => some (records, false)
    | (records, some e) => if e.kind = .unexpectedEof then some (records, true) else none

section

variable {openFile : String → Except String Reader}
  (classify : List UInt8 → MacAddr → Option Bucket) (ownMac : MacAddr) (startUs endUs : Int)

theorem countRecords_truncated (records : List Record) :
    (countRecords classify ownMac startUs endUs records).truncated = false := by
  induction records with
  | nil => rfl
  | cons r rs ih =>
    rw [countRecords_cons, OwnFrames.tally_add]
    exact ih

/-- A file that reads is counted for its records, the cut told. -/
theorem countFile_ringFile {path : String} {records : List Record} {cut : Bool}
    (reads : ringFile openFile path = some (records, cut)) :
    countFile openFile classify ownMac startUs endUs path =
      .ok { countRecords classify ownMac startUs endUs records with truncated := cut } := by
  have whole : { countRecords classify ownMac startUs endUs records with truncated := false } =
      countRecords classify ownMac startUs endUs records := by
    rw [← countRecords_truncated classify ownMac startUs endUs records]
  unfold ringFile at reads
  unfold countFile
  split at reads
  next => cases reads
  next file opened =>
    rw [opened]
    dsimp only [Except.mapError, bind, Except.bind]
    unfold countOwnFrames
    split at reads
    next got ending =>
      cases reads
      rw [ending]
      exact congrArg Except.ok whole.symm
    next got e ending =>
      split at reads
      next kind =>
        cases reads
        rw [ending]
        dsimp only
        rw [if_pos kind]
        rfl
      next => cases reads

/-- The files of a ring counted one after another: as all their records at once, and as cut as any
of them. -/
theorem foldlM_ringFiles {paths : List String} {files : List (List Record × Bool)}
    (read : paths.mapM (ringFile openFile) = some files) (total : OwnFrames) :
    paths.foldlM (fun total path => do
      let counted ← countFile openFile classify ownMac startUs endUs path
      .ok (total.absorb counted)) total =
      .ok { total.absorb (countRecords classify ownMac startUs endUs (files.flatMap Prod.fst)) with
        truncated := total.truncated || files.any Prod.snd } := by
  induction paths generalizing files total with
  | nil =>
    rw [List.mapM_nil] at read
    cases read
    have none_ : countRecords classify ownMac startUs endUs [] = .empty := rfl
    rw [List.flatMap_nil, none_, OwnFrames.absorb_empty, List.any_nil, Bool.or_false]
    rfl
  | cons path paths ih =>
    simp only [List.mapM_cons, Option.bind_eq_bind, Option.bind_eq_some_iff] at read
    obtain ⟨⟨records, cut⟩, here, rest, behind, whole⟩ := read
    cases whole
    rw [List.foldlM_cons, countFile_ringFile classify ownMac startUs endUs here]
    refine (ih behind _).trans ?_
    have sum : countRecords classify ownMac startUs endUs ((records, cut) :: rest |>.flatMap
        Prod.fst) = (countRecords classify ownMac startUs endUs records).absorb
          (countRecords classify ownMac startUs endUs (rest.flatMap Prod.fst)) := by
      rw [List.flatMap_cons]
      exact countRecords_append classify ownMac startUs endUs _ _
    rw [sum, List.any_cons, ← OwnFrames.absorb_assoc]
    unfold OwnFrames.absorb
    simp only [Bool.or_assoc]

end

/-- A split of the records into files does not show in the counts. -/
structure SplitBlind (classify : List UInt8 → MacAddr → Option Bucket) (ownMac : MacAddr)
    (startUs endUs : Int) : Prop where
  append : ∀ xs ys, countRecords classify ownMac startUs endUs (xs ++ ys) =
    (countRecords classify ownMac startUs endUs xs).absorb
      (countRecords classify ownMac startUs endUs ys)
  any_order : ∀ xs ys, xs.Perm ys → countRecords classify ownMac startUs endUs xs =
    countRecords classify ownMac startUs endUs ys
  slice : ∀ openFile quoted own paths files,
    (match own with | none => some unset | some text => macOctets text) = some ownMac →
    paths.mapM (ringFile openFile) = some files →
    countSlice openFile classify quoted paths own startUs endUs =
      .ok { countRecords classify ownMac startUs endUs (files.flatMap Prod.fst) with
        truncated := files.any Prod.snd }

theorem splitBlind (classify : List UInt8 → MacAddr → Option Bucket) (ownMac : MacAddr)
    (startUs endUs : Int) : SplitBlind classify ownMac startUs endUs where
  append := countRecords_append classify ownMac startUs endUs
  any_order _ _ := countRecords_perm classify ownMac startUs endUs
  slice openFile quoted own paths files mac read := by
    have counted := foldlM_ringFiles classify ownMac startUs endUs read .empty
    rw [OwnFrames.empty_absorb] at counted
    unfold countSlice
    cases own with
    | none =>
      cases mac
      exact counted
    | some text =>
      dsimp only at mac ⊢
      rw [mac]
      exact counted

/-- The counts of the machine's own frames over any records: blind to how the ring was split, put
together by a commutative monoid, each frame of its own in one bucket, every count exact. -/
theorem own_frames_exact {fromEthernet : List UInt8 → Option LaxSlicedPacket}
    (ethernet : SlicesEthernet fromEthernet) (ownMac : MacAddr) (startUs endUs : Int) :
    SplitBlind (classify fromEthernet) ownMac startUs endUs ∧
    (∀ x y z : OwnFrames, (x.absorb y).absorb z = x.absorb (y.absorb z) ∧
      x.absorb y = y.absorb x ∧ OwnFrames.empty.absorb x = x ∧ x.absorb .empty = x) ∧
    (∀ bytes, SentBy ownMac bytes ↔
      ∃! bucket, classify fromEthernet bytes ownMac = some bucket) ∧
    ∀ records, let counts := countRecords (classify fromEthernet) ownMac startUs endUs records
      CountsOf (classify fromEthernet · ownMac) startUs endUs records counts ∧
      WithinBounds startUs endUs counts ∧
      counts.ownTotal =
        records.countP fun r => r.within startUs endUs && decide (SentBy ownMac r.data) := by
  refine ⟨splitBlind _ ownMac startUs endUs, ?_, ?_, ?_⟩
  · exact fun x y z =>
      ⟨OwnFrames.absorb_assoc, OwnFrames.absorb_comm, OwnFrames.empty_absorb, OwnFrames.absorb_empty⟩
  · exact fun bytes => ethernet.existsUnique_bucket
  · intro records counts
    have exact_ : CountsOf (classify fromEthernet · ownMac) startUs endUs records counts :=
      countsOf_countRecords records
    refine ⟨exact_, exact_.withinBounds, exact_.ownTotal.trans ?_⟩
    apply List.countP_congr
    intro r _
    rw [Bool.and_eq_true, Bool.and_eq_true, ethernet.isSome_classify, decide_eq_true_iff]

/-- Slicing of frames that carry ARP, or nothing that is told apart. -/
def arpFrames (bytes : List UInt8) : Option LaxSlicedPacket :=
  if long : 14 ≤ bytes.length then
    some
      { link := some (.ethernet2 ⟨((bytes.drop 6).take 6).toArray, by simp; omega⟩)
        net := if (bytes.drop 12).take 2 = [0x08, 0x06] ∧ 42 ≤ bytes.length then some .arp
          else none
        transport := none }
  else none

theorem arpFrames_slicesEthernet : SlicesEthernet arpFrames where
  short bytes short := dif_neg (by omega)
  sliced bytes long := ⟨_, _, dif_pos long, rfl, rfl⟩

def machineMac : MacAddr := #v[0x3c, 0x22, 0xfb, 0x00, 0x00, 0x01]

/-- Who has 10.0.0.1, asked by the machine. -/
def arpRequest : List UInt8 :=
  List.replicate 6 0xff ++ machineMac.toList ++ [0x08, 0x06, 0, 1, 0x08, 0, 6, 4, 0, 1] ++
    machineMac.toList ++ [10, 0, 0, 7] ++ List.replicate 6 0 ++ [10, 0, 0, 1]

theorem own_frames_of_arp :
    (∃! bucket, classify arpFrames arpRequest machineMac = some bucket) ∧
      (countRecords (classify arpFrames) machineMac 0 9 [⟨5, arpRequest⟩]).ownTotal = 1 :=
  have exact_ := own_frames_exact arpFrames_slicesEthernet machineMac 0 9
  ⟨(exact_.2.2.1 arpRequest).mp (by decide), (exact_.2.2.2 [⟨5, arpRequest⟩]).2.2⟩

end NetObserver
