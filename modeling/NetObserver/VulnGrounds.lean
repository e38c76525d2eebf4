import NetObserver.VulnDb

/-! What a match at a high or a medium confidence rests on, in the fields of the raw records. -/

namespace NetObserver

namespace RawVersion

/-- Some field names a bound. A start of `0` or `*`, or a blank one, names none. -/
def Bounded (raw : RawVersion) : Prop :=
  (usable raw.lessThan).isSome ∨ (usable raw.lessThanOrEqual).isSome ∨
    (usable raw.versionEndIncluding).isSome ∨ (usable raw.versionEndExcluding).isSome ∨
    (usableStart raw.versionStartIncluding).isSome ∨
    (usableStart raw.versionStartExcluding).isSome ∨ (usableStart raw.version).isSome

/-- `bound` can be read, and stands so to the version. -/
def Bound (bound : Option String) (holds : Version → Prop) : Prop :=
  ∀ s ∈ bound, ∃ b, Version.parse s = some b ∧ holds b

/-- A field other than `version` that bounds the item from below. -/
def Started (raw : RawVersion) : Prop :=
  (usableStart raw.versionStartIncluding).isSome ∨ (usableStart raw.versionStartExcluding).isSome

/-- A field other than `version` that bounds the item from above. -/
def Ended (raw : RawVersion) : Prop :=
  (usable raw.lessThan).isSome ∨ (usable raw.lessThanOrEqual).isSome ∨
    (usable raw.versionEndIncluding).isSome ∨ (usable raw.versionEndExcluding).isSome

/-- Every bound the item names can be read and the version keeps to it. Its `version` is the lower
bound where only an upper one is named, and the one affected version where none is. -/
structure Holds (raw : RawVersion) (v : Version) : Prop where
  lessThan : Bound (usable raw.lessThan) fun b => v.cmp b = .lt
  lessThanOrEqual : Bound (usable raw.lessThanOrEqual) fun b => (v.cmp b).isLE
  endIncluding : Bound (usable raw.versionEndIncluding) fun b => (v.cmp b).isLE
  endExcluding : Bound (usable raw.versionEndExcluding) fun b => v.cmp b = .lt
  startIncluding : Bound (usableStart raw.versionStartIncluding) fun b => (b.cmp v).isLE
  startExcluding : Bound (usableStart raw.versionStartExcluding) fun b => b.cmp v = .lt
  version : ¬ raw.Started → Bound (usableStart raw.version) fun b =>
    (raw.Ended → (b.cmp v).isLE) ∧ (¬ raw.Ended → b = v)

/-- The upper bounds that a later field for the same bound stands in for. -/
def overridden (raw : RawVersion) : VersionRange :=
  { startIncluding := none
    startExcluding := none
    endIncluding :=
      if (usable raw.versionEndIncluding).isSome then usable raw.lessThanOrEqual else none
    endExcluding := if (usable raw.versionEndExcluding).isSome then usable raw.lessThan else none
    exact_ := none }

theorem bound_none (holds : Version → Prop) : Bound none holds := by
  intro s mem
  cases mem

theorem bound_some {s : String} {holds : Version → Prop} :
    Bound (some s) holds ↔ ∃ b, Version.parse s = some b ∧ holds b := by
  constructor
  · intro bound
    exact bound s rfl
  · rintro found t mem
    cases mem
    exact found

/-- Of two fields for one bound the first stands; the other is what it overrides. -/
theorem bound_or (first second : Option String) (holds : Version → Prop) :
    Bound (first.or second) holds ∧ Bound (if first.isSome then second else none) holds ↔
      Bound first holds ∧ Bound second holds := by
  cases first with
  | none =>
    rw [Option.none_or, Option.isSome_none, if_neg Bool.false_ne_true]
    exact ⟨fun both => ⟨bound_none _, both.1⟩, fun both => ⟨both.2, bound_none _⟩⟩
  | some s => rw [Option.some_or, Option.isSome_some, if_pos rfl]

theorem filter_usable (bound : Option String) :
    (usable bound).filter meaningfulStart = usableStart bound := by
  cases bound with
  | none => rfl
  | some s =>
    unfold usable usableStart
    rw [Option.filter_filter]
    congr 1
    funext s
    unfold meaningfulStart
    cases StdText.isBlank s <;> rfl

end RawVersion

/-- What `contains` asks of a version that can be read. -/
def VersionRange.Allows (r : VersionRange) (v : Version) : Prop :=
  (∀ e ∈ r.exact_, Version.parse e = some v) ∧ (r.exact_ = none → r.Within v)

theorem VersionRange.contains_iff_allows (r : VersionRange) (text : String) :
    r.contains text = some true ↔ ∃ v, Version.parse text = some v ∧ r.Allows v := by
  cases exact_ : r.exact_ with
  | none =>
    rw [contains_iff exact_]
    refine exists_congr fun v => and_congr_right fun _ => ?_
    constructor
    · intro within
      refine ⟨fun e mem => ?_, fun _ => within⟩
      rw [exact_] at mem
      cases mem
    · intro allows
      exact allows.2 exact_
  | some e =>
    rw [contains_exact_iff exact_]
    refine exists_congr fun v => and_congr_right fun _ => ?_
    constructor
    · intro same
      refine ⟨fun f mem => ?_, fun none_ => ?_⟩
      · rw [exact_] at mem
        cases mem
        exact same
      · rw [exact_] at none_
        cases none_
    · intro allows
      exact allows.1 e exact_

namespace RawVersion

theorem within_iff {r : VersionRange} {v : Version} :
    r.Within v ↔ Bound r.startIncluding (fun b => (b.cmp v).isLE) ∧
      Bound r.startExcluding (fun b => b.cmp v = .lt) ∧
      Bound r.endIncluding (fun b => (v.cmp b).isLE) ∧ Bound r.endExcluding fun b => v.cmp b = .lt := by
  constructor
  · rintro ⟨startIncluding, startExcluding, endIncluding, endExcluding⟩
    exact ⟨startIncluding, startExcluding, endIncluding, endExcluding⟩
  · rintro ⟨startIncluding, startExcluding, endIncluding, endExcluding⟩
    exact ⟨startIncluding, startExcluding, endIncluding, endExcluding⟩

/-- The bounds that stand, `version` apart. -/
def bounds (raw : RawVersion) : VersionRange :=
  { startIncluding := usableStart raw.versionStartIncluding
    startExcluding := usableStart raw.versionStartExcluding
    endIncluding := (usable raw.versionEndIncluding).or (usable raw.lessThanOrEqual)
    endExcluding := (usable raw.versionEndExcluding).or (usable raw.lessThan)
    exact_ := none }

theorem started_iff (raw : RawVersion) :
    raw.Started ↔ (raw.bounds.startIncluding.isSome || raw.bounds.startExcluding.isSome) = true := by
  rw [Bool.or_eq_true]
  rfl

theorem ended_iff (raw : RawVersion) :
    raw.Ended ↔ (raw.bounds.endExcluding.isSome || raw.bounds.endIncluding.isSome) = true := by
  unfold Ended bounds
  simp only [Option.isSome_or, Bool.or_eq_true]
  tauto

theorem range_eq (raw : RawVersion) :
    raw.range = (usableStart raw.version).elim raw.bounds fun v =>
      if (raw.bounds.endExcluding.isSome || raw.bounds.endIncluding.isSome ||
          (raw.bounds.startIncluding.isSome || raw.bounds.startExcluding.isSome)) = true then
        if (raw.bounds.startIncluding.isSome || raw.bounds.startExcluding.isSome) = true then
          raw.bounds
        else { raw.bounds with startIncluding := some v }
      else { raw.bounds with exact_ := some v } := by
  unfold range
  rw [filter_usable]
  cases usableStart raw.version <;> rfl

theorem bounds_allows_iff (raw : RawVersion) (v : Version) :
    raw.bounds.Allows v ↔ raw.bounds.Within v := by
  constructor
  · intro allows
    exact allows.2 rfl
  · intro within
    exact ⟨fun e mem => (by cases mem), fun _ => within⟩

/-- The item's bounds hold exactly when its range allows the version and no overridden bound stands
in the way. -/
theorem holds_iff (raw : RawVersion) (v : Version) :
    raw.Holds v ↔ raw.range.Allows v ∧ raw.overridden.Within v := by
  have ends : (raw.Holds v ↔ raw.bounds.Within v ∧ raw.overridden.Within v ∧
      (¬ raw.Started → Bound (usableStart raw.version) fun b =>
        (raw.Ended → (b.cmp v).isLE) ∧ (¬ raw.Ended → b = v))) := by
    have including := bound_or (usable raw.versionEndIncluding) (usable raw.lessThanOrEqual)
      fun b => (v.cmp b).isLE = true
    have excluding := bound_or (usable raw.versionEndExcluding) (usable raw.lessThan)
      fun b => v.cmp b = .lt
    rw [within_iff, within_iff]
    constructor
    · intro holds
      have incl := including.mpr ⟨holds.endIncluding, holds.lessThanOrEqual⟩
      have excl := excluding.mpr ⟨holds.endExcluding, holds.lessThan⟩
      exact ⟨⟨holds.startIncluding, holds.startExcluding, incl.1, excl.1⟩,
        ⟨bound_none _, bound_none _, incl.2, excl.2⟩, holds.version⟩
    · rintro ⟨⟨startIncluding, startExcluding, endIncluding, endExcluding⟩,
        ⟨-, -, lte, lt⟩, version⟩
      have incl := including.mp ⟨endIncluding, lte⟩
      have excl := excluding.mp ⟨endExcluding, lt⟩
      exact ⟨excl.2, incl.2, incl.1, excl.1, startIncluding, startExcluding, version⟩
  rw [ends, ← and_assoc, and_right_comm]
  refine and_congr_left fun _ => ?_
  rw [started_iff, ended_iff, range_eq]
  cases version : usableStart raw.version with
  | none =>
    rw [Option.elim_none, bounds_allows_iff]
    exact and_iff_left fun _ => bound_none _
  | some s =>
    rw [Option.elim_some, bound_some]
    by_cases started : (raw.bounds.startIncluding.isSome || raw.bounds.startExcluding.isSome) = true
    · rw [if_pos (by rw [started, Bool.or_true]), if_pos started, bounds_allows_iff]
      exact and_iff_left fun unstarted => absurd started unstarted
    · have unstarted : raw.bounds.startIncluding = none ∧ raw.bounds.startExcluding = none := by
        simpa using started
      rw [Bool.not_eq_true] at started
      rw [started, Bool.or_false]
      by_cases ended : (raw.bounds.endExcluding.isSome || raw.bounds.endIncluding.isSome) = true
      · rw [if_pos ended, if_neg Bool.false_ne_true]
        constructor
        · rintro ⟨within, version⟩
          obtain ⟨b, read, least, -⟩ := version Bool.false_ne_true
          refine ⟨fun e mem => (by cases mem), fun _ => within_iff.mpr ?_⟩
          obtain ⟨-, startExcluding, endIncluding, endExcluding⟩ := within_iff.mp within
          exact ⟨bound_some.mpr ⟨b, read, least ended⟩, startExcluding, endIncluding, endExcluding⟩
        · intro allows
          obtain ⟨startIncluding, startExcluding, endIncluding, endExcluding⟩ :=
            within_iff.mp (allows.2 rfl)
          obtain ⟨b, read, least⟩ := bound_some.mp startIncluding
          refine ⟨within_iff.mpr ⟨?_, startExcluding, endIncluding, endExcluding⟩, fun _ => ?_⟩
          · rw [unstarted.1]
            exact bound_none _
          · exact ⟨b, read, fun _ => least, fun unended => absurd ended unended⟩
      · have unended : raw.bounds.endExcluding = none ∧ raw.bounds.endIncluding = none := by
          simpa using ended
        rw [if_neg ended]
        constructor
        · rintro ⟨-, version⟩
          obtain ⟨b, read, -, itself⟩ := version Bool.false_ne_true
          rw [itself ended] at read
          refine ⟨fun e mem => ?_, fun none_ => by cases none_⟩
          cases mem
          exact read
        · intro allows
          have read := allows.1 s rfl
          refine ⟨within_iff.mpr ?_, fun _ => ⟨v, read, fun may => absurd may ended, fun _ => rfl⟩⟩
          rw [unstarted.1, unstarted.2, unended.1, unended.2]
          exact ⟨bound_none _, bound_none _, bound_none _, bound_none _⟩

theorem isUnbounded_range (raw : RawVersion) : raw.range.isUnbounded = false ↔ raw.Bounded := by
  have grouped : raw.Bounded ↔ raw.Ended ∨ raw.Started ∨ (usableStart raw.version).isSome := by
    unfold Bounded Ended Started
    tauto
  rw [grouped, ended_iff, started_iff, range_eq]
  unfold VersionRange.isUnbounded bounds
  cases usableStart raw.version with
  | none =>
    generalize usableStart raw.versionStartIncluding = si
    generalize usableStart raw.versionStartExcluding = se
    generalize (usable raw.versionEndIncluding).or (usable raw.lessThanOrEqual) = ei
    generalize (usable raw.versionEndExcluding).or (usable raw.lessThan) = ee
    cases si <;> cases se <;> cases ei <;> cases ee <;> simp
  | some v =>
    refine iff_of_true ?_ (.inr (.inr rfl))
    rw [Option.elim_some]
    split
    next bounded =>
      split
      next started =>
        rcases (Bool.or_eq_true _ _).mp started with si | se
        · simp [Option.isNone_eq_false_iff.mpr si]
        · simp [Option.isNone_eq_false_iff.mpr se]
      next => simp
    next => simp

/-- The item puts the version within its range, and has one. -/
def InRange (raw : RawVersion) (text : String) : Prop :=
  raw.range.isUnbounded = false ∧ raw.range.contains text = some true

theorem inRange_iff (raw : RawVersion) (text : String) :
    raw.InRange text ∧ (∀ v, Version.parse text = some v → raw.overridden.Within v) ↔
      raw.Bounded ∧ ∃ v, Version.parse text = some v ∧ raw.Holds v := by
  unfold InRange
  rw [isUnbounded_range, VersionRange.contains_iff_allows]
  constructor
  · rintro ⟨⟨bounded, v, read, allows⟩, within⟩
    exact ⟨bounded, v, read, (raw.holds_iff v).mpr ⟨allows, within v read⟩⟩
  · rintro ⟨bounded, v, read, holds⟩
    obtain ⟨allows, within⟩ := (raw.holds_iff v).mp holds
    refine ⟨⟨bounded, v, read, allows⟩, fun w read' => ?_⟩
    cases read.symm.trans read'
    exact within

end RawVersion

namespace RawAffected

/-- An entry for the product of the query, and for its vendor where both sides name one. -/
structure For (a : RawAffected) (cpe : Cpe) : Prop where
  product : ∃ p ∈ a.product, namesNone (StdText.trimLower p) = false ∧
    StdText.trimLower p = StdText.trimLower cpe.product
  vendor : ∀ q ∈ cpe.vendor, ∀ w ∈ a.vendor, namesNone (StdText.trimLower w) = false →
    StdText.trimLower q = StdText.trimLower w

/-- An affected item puts the version within its range. -/
def InRange (a : RawAffected) (text : String) : Prop :=
  ∃ item ∈ a.versions, item.isAffected a.defaultAffected = true ∧ item.InRange text

/-- An affected item has bounds, and the version keeps to all of them. -/
def GroundsHigh (a : RawAffected) (text : String) : Prop :=
  ∃ item ∈ a.versions, item.isAffected a.defaultAffected = true ∧ item.Bounded ∧
    ∃ v, Version.parse text = some v ∧ item.Holds v

/-- The entry is affected without any bound. -/
def GroundsMedium (a : RawAffected) : Prop :=
  (∃ item ∈ a.versions, item.isAffected a.defaultAffected = true ∧ ¬ item.Bounded) ∨
    a.versions = [] ∧ (a.defaultStatus = none ∨ a.defaultAffected = true)

/-- No item is affected; or there is none, under a default that is not `affected`. -/
def Spared (a : RawAffected) : Prop :=
  (∀ item ∈ a.versions, item.isAffected a.defaultAffected = false) ∧
    (a.versions = [] → a.defaultStatus ≠ none ∧ a.defaultAffected = false)

end RawAffected

section Confidence

variable {aff : AffectedProduct} {text : String}

theorem confidenceFor_high :
    confidenceFor aff (some text) = some .high ↔
      ∃ r ∈ aff.ranges, r.isUnbounded = false ∧ r.contains text = some true := by
  unfold confidenceFor
  dsimp only
  split
  next free =>
    refine iff_of_false (fun high => by cases high) ?_
    rintro ⟨r, mem, bounded, -⟩
    rcases (Bool.or_eq_true _ _).mp free with empty | all
    · rw [List.isEmpty_iff.mp empty] at mem
      cases mem
    · rw [List.all_eq_true.mp all r mem] at bounded
      cases bounded
  next =>
    split
    next inside =>
      refine iff_of_true rfl ?_
      obtain ⟨r, mem, both⟩ := List.any_eq_true.mp inside
      rw [Bool.and_eq_true, Bool.not_eq_true', beq_iff_eq] at both
      exact ⟨r, mem, both⟩
    next outside =>
      refine iff_of_false (fun high => ?_) ?_
      · split at high
        · cases high
        · cases high
      · rintro ⟨r, mem, bounded, contained⟩
        refine outside (List.any_eq_true.mpr ⟨r, mem, ?_⟩)
        rw [bounded, contained]
        rfl

theorem confidenceFor_medium :
    confidenceFor aff (some text) = some .medium ↔
      confidenceFor aff (some text) ≠ some .high ∧
        (aff.ranges = [] ∨ ∃ r ∈ aff.ranges, r.isUnbounded = true) := by
  unfold confidenceFor
  dsimp only
  split
  next free =>
    refine iff_of_true rfl ⟨fun high => (by cases high), ?_⟩
    rcases (Bool.or_eq_true _ _).mp free with empty | all
    · exact .inl (List.isEmpty_iff.mp empty)
    · cases ranges : aff.ranges with
      | nil => exact .inl rfl
      | cons r rest =>
        refine .inr ⟨r, List.mem_cons_self, List.all_eq_true.mp all r ?_⟩
        rw [ranges]
        exact List.mem_cons_self
  next bounded =>
    split
    next =>
      refine iff_of_false (fun medium => by cases medium) ?_
      rintro ⟨other, -⟩
      exact other rfl
    next =>
      split
      next some_ =>
        refine iff_of_true rfl ⟨fun high => (by cases high), .inr ?_⟩
        exact List.any_eq_true.mp some_
      next none_ =>
        refine iff_of_false (fun medium => by cases medium) ?_
        rintro ⟨-, empty | ⟨r, mem, free⟩⟩
        · rw [empty] at bounded
          exact bounded rfl
        · exact none_ (List.any_eq_true.mpr ⟨r, mem, free⟩)

theorem confidenceFor_ne_low : confidenceFor aff (some text) ≠ some .low := by
  unfold confidenceFor
  dsimp only
  intro low
  split at low
  · cases low
  · split at low
    · cases low
    · split at low
      · cases low
      · cases low

end Confidence

namespace RawAffected

variable {a : RawAffected} {aff : AffectedProduct} {cpe : Cpe} {text : String}

theorem convert_eq_some (converted : convertAffected a = some aff) :
    ∃ p ∈ a.product, namesNone (StdText.trimLower p) = false ∧ aff.product = StdText.trimLower p ∧
      (aff.vendor = (a.vendor.map StdText.trimLower).filter fun v => !namesNone v) ∧
      aff.ranges = a.versions.filterMap fun v => convertVersion v a.defaultAffected := by
  obtain ⟨q, named, rfl⟩ := Option.map_eq_some_iff.mp converted
  obtain ⟨mapped, usable⟩ := Option.filter_eq_some_iff.mp named
  obtain ⟨p, given, rfl⟩ := Option.map_eq_some_iff.mp mapped
  exact ⟨p, given, by simpa using usable, rfl, rfl, rfl⟩

theorem For.converts (relevant : a.For cpe) : ∃ aff, convertAffected a = some aff := by
  obtain ⟨p, given, usable, -⟩ := relevant.product
  have named : (a.product.map StdText.trimLower).filter (fun p => !namesNone p) =
      some (StdText.trimLower p) := by
    rw [Option.mem_def.mp given, Option.map_some, Option.filter_some, usable]
    rfl
  unfold convertAffected
  rw [named]
  exact ⟨_, rfl⟩

/-- An entry that names no vendor, or the query's, is not passed over for it. -/
theorem vendor_iff (vendor : aff.vendor = (a.vendor.map StdText.trimLower).filter fun v => !namesNone v) :
    ((cpe.vendor.map StdText.trimLower).any fun q => aff.vendor.any fun w => q != w) = false ↔
      ∀ q ∈ cpe.vendor, ∀ w ∈ a.vendor, namesNone (StdText.trimLower w) = false →
        StdText.trimLower q = StdText.trimLower w := by
  rw [vendor]
  cases cpe.vendor with
  | none => simp
  | some q =>
    cases a.vendor with
    | none => simp
    | some w =>
      cases none_ : namesNone (StdText.trimLower w) with
      | true => simp [none_]
      | false => simp [none_]

theorem reach_iff (converted : convertAffected a = some aff) {conf : Confidence} :
    aff.reach cpe = some conf ↔ a.For cpe ∧ confidenceFor aff cpe.version = some conf := by
  obtain ⟨p, given, usable, product, vendor, -⟩ := convert_eq_some converted
  unfold AffectedProduct.reach
  split
  next other =>
    refine iff_of_false (fun some_ => by cases some_) ?_
    rintro ⟨relevant, -⟩
    obtain ⟨p', given', -, same⟩ := relevant.product
    cases (Option.mem_def.mp given).symm.trans given'
    rw [product, same] at other
    simp at other
  next same =>
    have product' : StdText.trimLower p = StdText.trimLower cpe.product := by
      rw [← product]
      simpa using same
    split
    next vetoed =>
      refine iff_of_false (fun some_ => by cases some_) ?_
      rintro ⟨relevant, -⟩
      rw [(vendor_iff vendor).mpr relevant.vendor] at vetoed
      cases vetoed
    next passed =>
      rw [Bool.not_eq_true, vendor_iff vendor] at passed
      exact (and_iff_right ⟨⟨p, given, usable, product'⟩, passed⟩).symm

theorem mem_ranges (converted : convertAffected a = some aff) {r : VersionRange} :
    r ∈ aff.ranges ↔
      ∃ item ∈ a.versions, item.isAffected a.defaultAffected = true ∧ item.range = r := by
  obtain ⟨-, -, -, -, -, ranges⟩ := convert_eq_some converted
  rw [ranges, List.mem_filterMap]
  refine exists_congr fun item => and_congr_right fun _ => ?_
  unfold convertVersion
  split
  next affected => simp [affected]
  next spared => simp [spared]

theorem confidenceFor_high_iff (converted : convertAffected a = some aff) :
    confidenceFor aff (some text) = some .high ↔ a.InRange text := by
  rw [confidenceFor_high]
  constructor
  · rintro ⟨r, mem, inRange⟩
    obtain ⟨item, listed, affected, rfl⟩ := (mem_ranges converted).mp mem
    exact ⟨item, listed, affected, inRange⟩
  · rintro ⟨item, listed, affected, inRange⟩
    exact ⟨item.range, (mem_ranges converted).mpr ⟨item, listed, affected, rfl⟩, inRange⟩

theorem confidenceFor_medium_iff (converted : convertAffected a = some aff) :
    confidenceFor aff (some text) = some .medium ↔
      ¬ a.InRange text ∧ (a.Spared ∨ a.GroundsMedium) := by
  rw [confidenceFor_medium, Ne, confidenceFor_high_iff converted]
  refine and_congr_right fun _ => ?_
  have noRanges : aff.ranges = [] ↔ ∀ item ∈ a.versions, item.isAffected a.defaultAffected = false := by
    rw [List.eq_nil_iff_forall_not_mem]
    constructor
    · intro empty item mem
      by_contra affected
      rw [Bool.not_eq_false] at affected
      exact empty item.range ((mem_ranges converted).mpr ⟨item, mem, affected, rfl⟩)
    · intro spared r mem
      obtain ⟨item, listed, affected, -⟩ := (mem_ranges converted).mp mem
      rw [spared item listed] at affected
      cases affected
  constructor
  · rintro (empty | ⟨r, mem, free⟩)
    · by_cases bare : a.versions = [] ∧ (a.defaultStatus = none ∨ a.defaultAffected = true)
      · exact .inr (.inr bare)
      · refine .inl ⟨noRanges.mp empty, fun none_ => ?_⟩
        rw [not_and] at bare
        have both := not_or.mp (bare none_)
        exact ⟨both.1, Bool.not_eq_true _ ▸ both.2⟩
    · obtain ⟨item, listed, affected, rfl⟩ := (mem_ranges converted).mp mem
      refine .inr (.inl ⟨item, listed, affected, fun bounded => ?_⟩)
      rw [item.isUnbounded_range.mpr bounded] at free
      cases free
  · rintro (⟨spared, -⟩ | ⟨item, listed, affected, unbounded⟩ | ⟨none_, -⟩)
    · exact .inl (noRanges.mpr spared)
    · refine .inr ⟨item.range, (mem_ranges converted).mpr ⟨item, listed, affected, rfl⟩, ?_⟩
      by_contra bounded
      rw [Bool.not_eq_true] at bounded
      exact unbounded (item.isUnbounded_range.mp bounded)
    · refine .inl (noRanges.mpr fun item mem => ?_)
      rw [none_] at mem
      cases mem

end RawAffected

/-- An affected item has the version in its range, and within the upper bounds that the range
overrides. -/
def RawAffected.InRangeWhole (a : RawAffected) (text : String) : Prop :=
  ∃ item ∈ a.versions, item.isAffected a.defaultAffected = true ∧ item.InRange text ∧
    ∀ v, Version.parse text = some v → item.overridden.Within v

theorem RawAffected.inRangeWhole_iff (a : RawAffected) (text : String) :
    a.InRangeWhole text ↔ a.GroundsHigh text :=
  exists_congr fun item => and_congr_right fun _ => and_congr_right fun _ => item.inRange_iff text

def RawCveRecord.affected (r : RawCveRecord) : List RawAffected := (r.cna.map RawCna.affected).getD []

/-- An affected entry of some record of the CVE. -/
def OfCve (records : List RawCveRecord) (id : String) (a : RawAffected) : Prop :=
  ∃ r ∈ records, r.cveId = some id ∧ a ∈ r.affected

/-- A match rests on an affected version: a high one on an affected item whose bounds contain the
version, a medium one on an entry that is affected without bounds. -/
structure VulnMatch.Grounded (m : VulnMatch) (records : List RawCveRecord) (cpe : Cpe)
    (text : String) : Prop where
  high : m.confidence = .high →
    ∃ a, OfCve records m.cveId a ∧ a.For cpe ∧ a.GroundsHigh text
  medium : m.confidence = .medium →
    ∃ a, OfCve records m.cveId a ∧ a.For cpe ∧ a.GroundsMedium

theorem parseCveRecord_eq_some {r : RawCveRecord} {e : CveEntry} (parsed : parseCveRecord r = some e) :
    r.cveId = some e.cveId ∧ e.cveId ≠ "" ∧ e.affected = r.affected.filterMap convertAffected := by
  obtain ⟨id, named, parsed⟩ := Option.bind_eq_some_iff.mp parsed
  obtain ⟨given, nonempty⟩ := Option.filter_eq_some_iff.mp named
  obtain ⟨cna, contained, parsed⟩ := Option.bind_eq_some_iff.mp parsed
  dsimp only at parsed
  split at parsed
  next => cases parsed
  next =>
    cases parsed
    refine ⟨given, by simpa using nonempty, ?_⟩
    unfold RawCveRecord.affected
    rw [contained]
    rfl

theorem parseCveRecord_of_converts {r : RawCveRecord} {id : String} (given : r.cveId = some id)
    (nonempty : id ≠ "") {a : RawAffected} (mem : a ∈ r.affected) {aff : AffectedProduct}
    (converted : convertAffected a = some aff) : ∃ e, parseCveRecord r = some e ∧ e.cveId = id := by
  have named : r.cveId.filter (fun id => id != "") = some id := by
    rw [given, Option.filter_some, if_pos (by simpa using nonempty)]
  unfold RawCveRecord.affected at mem
  cases contained : r.cna with
  | none =>
    rw [contained] at mem
    cases mem
  | some cna =>
    rw [contained] at mem
    have listed : aff ∈ cna.affected.filterMap convertAffected :=
      List.mem_filterMap.mpr ⟨a, mem, converted⟩
    unfold parseCveRecord
    rw [named, contained, Option.bind_some, Option.bind_some]
    dsimp only
    rw [if_neg]
    · exact ⟨_, rfl, rfl⟩
    · intro empty
      rw [List.isEmpty_iff.mp empty] at listed
      cases listed

section Records

variable {r : RawCveRecord} {e : CveEntry} {vendor : Option String} {product text : String}

/-- An entry is reached with a confidence that the products of the record ground. -/
theorem reach_iff_grounds (parsed : parseCveRecord r = some e) {cpe : Cpe} {conf : Confidence}
    {grounds : RawAffected → Prop} (told : ∀ {a : RawAffected} {aff : AffectedProduct},
      convertAffected a = some aff → (confidenceFor aff cpe.version = some conf ↔ grounds a)) :
    (∃ aff ∈ e.affected, aff.reach cpe = some conf) ↔
      ∃ a ∈ r.affected, a.For cpe ∧ grounds a := by
  rw [(parseCveRecord_eq_some parsed).2.2]
  constructor
  · rintro ⟨aff, mem, reached⟩
    obtain ⟨a, listed, converted⟩ := List.mem_filterMap.mp mem
    obtain ⟨relevant, confident⟩ := (RawAffected.reach_iff converted).mp reached
    exact ⟨a, listed, relevant, (told converted).mp confident⟩
  · rintro ⟨a, listed, relevant, grounded⟩
    obtain ⟨aff, converted⟩ := relevant.converts
    exact ⟨aff, List.mem_filterMap.mpr ⟨a, listed, converted⟩,
      (RawAffected.reach_iff converted).mpr ⟨relevant, (told converted).mpr grounded⟩⟩

theorem reach_high_iff (parsed : parseCveRecord r = some e) :
    (∃ aff ∈ e.affected, aff.reach ⟨vendor, product, some text⟩ = some .high) ↔
      ∃ a ∈ r.affected, a.For ⟨vendor, product, some text⟩ ∧ a.InRange text :=
  reach_iff_grounds parsed RawAffected.confidenceFor_high_iff

theorem reach_medium_iff (parsed : parseCveRecord r = some e) :
    (∃ aff ∈ e.affected, aff.reach ⟨vendor, product, some text⟩ = some .medium) ↔
      ∃ a ∈ r.affected, a.For ⟨vendor, product, some text⟩ ∧ ¬ a.InRange text ∧
        (a.Spared ∨ a.GroundsMedium) :=
  reach_iff_grounds parsed RawAffected.confidenceFor_medium_iff

theorem best_high_iff (parsed : parseCveRecord r = some e) :
    e.best ⟨vendor, product, some text⟩ = some .high ↔
      ∃ a ∈ r.affected, a.For ⟨vendor, product, some text⟩ ∧ a.InRange text := by
  rw [CveEntry.best_eq_some_iff, reach_high_iff parsed]
  refine and_iff_left ?_
  intro aff _ c _
  cases c <;> decide

theorem best_medium_iff (parsed : parseCveRecord r = some e) :
    e.best ⟨vendor, product, some text⟩ = some .medium ↔
      (∀ a ∈ r.affected, a.For ⟨vendor, product, some text⟩ → ¬ a.InRange text) ∧
        ∃ a ∈ r.affected, a.For ⟨vendor, product, some text⟩ ∧ (a.Spared ∨ a.GroundsMedium) := by
  have noHigh : (∀ aff ∈ e.affected, ∀ c, aff.reach ⟨vendor, product, some text⟩ = some c →
      c ≤ Confidence.medium) ↔
      ∀ a ∈ r.affected, a.For ⟨vendor, product, some text⟩ → ¬ a.InRange text := by
    constructor
    · intro most a listed relevant inRange
      obtain ⟨aff, mem, high⟩ := (reach_high_iff parsed).mpr ⟨a, listed, relevant, inRange⟩
      exact absurd (most aff mem _ high) (by decide)
    · intro none_ aff mem c reached
      cases c with
      | high =>
        obtain ⟨a, listed, relevant, inRange⟩ := (reach_high_iff parsed).mp ⟨aff, mem, reached⟩
        exact absurd inRange (none_ a listed relevant)
      | medium => exact le_refl _
      | low => decide
  rw [CveEntry.best_eq_some_iff, reach_medium_iff parsed, noHigh, and_comm]
  refine and_congr_right fun none_ => ?_
  refine exists_congr fun a => and_congr_right fun listed => and_congr_right fun relevant => ?_
  exact and_iff_right (none_ a listed relevant)

end Records

/-- Every match rests on an affected version exactly when, for every record, a relevant entry that
has the version in a range is matched by one of its CVE whose overridden upper bounds the version
keeps to as well; and a relevant entry that is not affected at all, where no entry has the version
in a range, by one of its CVE that is affected without bounds. -/
theorem matchProduct_grounded_iff (records : List RawCveRecord) (kev : String → Bool)
    (vendor : Option String) (product text : String) :
    (∀ m ∈ (VulnDb.ofEntries (records.filterMap parseCveRecord) kev).matchProduct
        ⟨vendor, product, some text⟩, m.Grounded records ⟨vendor, product, some text⟩ text) ↔
      ∀ r ∈ records, ∀ id, r.cveId = some id → id ≠ "" →
        ((∃ a ∈ r.affected, a.For ⟨vendor, product, some text⟩ ∧ a.InRange text) →
          ∃ a, OfCve records id a ∧ a.For ⟨vendor, product, some text⟩ ∧ a.InRangeWhole text) ∧
        ((∀ a ∈ r.affected, a.For ⟨vendor, product, some text⟩ → ¬ a.InRange text) →
          (∃ a ∈ r.affected, a.For ⟨vendor, product, some text⟩ ∧ a.Spared) →
          ∃ a, OfCve records id a ∧ a.For ⟨vendor, product, some text⟩ ∧ a.GroundsMedium) := by
  have matched (r : RawCveRecord) (listed : r ∈ records) {e : CveEntry}
      (parsed : parseCveRecord r = some e) {conf : Confidence}
      (best : e.best ⟨vendor, product, some text⟩ = some conf) :
      ∃ m ∈ (VulnDb.ofEntries (records.filterMap parseCveRecord) kev).matchProduct
        ⟨vendor, product, some text⟩, m.cveId = e.cveId ∧ m.confidence = conf := by
    refine ⟨⟨e.cveId, e.summary, conf, kev e.cveId, e.cvss⟩, VulnDb.mem_matchProduct.mpr
      ⟨e, List.mem_filterMap.mpr ⟨r, listed, parsed⟩, ?_⟩, rfl, rfl⟩
    rw [CveEntry.matched, best]
    rfl
  constructor
  · intro grounded r listed id given nonempty
    constructor
    · rintro ⟨a, mem, relevant, inRange⟩
      obtain ⟨aff, converted⟩ := relevant.converts
      obtain ⟨e, parsed, rfl⟩ := parseCveRecord_of_converts given nonempty mem converted
      obtain ⟨m, out, same, high⟩ := matched r listed parsed
        ((best_high_iff parsed).mpr ⟨a, mem, relevant, inRange⟩)
      obtain ⟨a', ofCve, relevant', grounds⟩ := (grounded m out).high high
      exact ⟨a', same ▸ ofCve, relevant', (a'.inRangeWhole_iff text).mpr grounds⟩
    · rintro none_ ⟨a, mem, relevant, spared⟩
      obtain ⟨aff, converted⟩ := relevant.converts
      obtain ⟨e, parsed, rfl⟩ := parseCveRecord_of_converts given nonempty mem converted
      obtain ⟨m, out, same, medium⟩ := matched r listed parsed
        ((best_medium_iff parsed).mpr ⟨none_, a, mem, relevant, .inl spared⟩)
      obtain ⟨a', ofCve, relevant', grounds⟩ := (grounded m out).medium medium
      exact ⟨a', same ▸ ofCve, relevant', grounds⟩
  · intro rests m out
    obtain ⟨e, listed, found⟩ := VulnDb.mem_matchProduct.mp out
    obtain ⟨r, listed, parsed⟩ := List.mem_filterMap.mp listed
    obtain ⟨conf, best, rfl⟩ := Option.map_eq_some_iff.mp found
    obtain ⟨given, nonempty, -⟩ := parseCveRecord_eq_some parsed
    obtain ⟨high, medium⟩ := rests r listed e.cveId given nonempty
    constructor
    · rintro rfl
      obtain ⟨a, ofCve, relevant, whole⟩ := high ((best_high_iff parsed).mp best)
      exact ⟨a, ofCve, relevant, (a.inRangeWhole_iff text).mp whole⟩
    · rintro rfl
      obtain ⟨none_, a, mem, relevant, spared | grounds⟩ := (best_medium_iff parsed).mp best
      · exact medium none_ ⟨a, mem, relevant, spared⟩
      · exact ⟨a, ⟨r, listed, given, mem⟩, relevant, grounds⟩

/-- A product of which the record names one version, as not affected. -/
def sparedEntry : RawAffected :=
  ⟨none, some "OpenSSH", none,
    [⟨some "9.8", some "unaffected", none, none, none, none, none, none⟩]⟩

def sparedRecord : RawCveRecord :=
  ⟨some "CVE-2024-6387", some ⟨some "signal handler race", [], [sparedEntry], []⟩⟩

theorem spared_entry_matches :
    ⟨"CVE-2024-6387", "signal handler race", .medium, false, none⟩ ∈
      (VulnDb.ofEntries ([sparedRecord].filterMap parseCveRecord) fun _ => false).matchProduct
        ⟨none, "openssh", some "7.4"⟩ ∧
    ¬ (VulnMatch.mk "CVE-2024-6387" "signal handler race" .medium false none).Grounded [sparedRecord]
      ⟨none, "openssh", some "7.4"⟩ "7.4" := by
  constructor
  · rw [VulnDb.mem_matchProduct]
    exact ⟨_, List.mem_singleton_self _, rfl⟩
  · intro grounded
    obtain ⟨a, ⟨r, listed, -, mem⟩, -, grounds⟩ := grounded.medium rfl
    rw [List.mem_singleton.mp listed] at mem
    rw [List.mem_singleton.mp mem] at grounds
    rcases grounds with ⟨item, listed, affected, -⟩ | ⟨none_, -⟩
    · rw [List.mem_singleton.mp listed] at affected
      revert affected
      decide
    · cases none_

end NetObserver
