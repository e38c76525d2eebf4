import NetObserver.ChannelGeometry

/-! When the arithmetic of a radio's place and of the overlap stays within 32 bits. -/

namespace NetObserver

def FitsI32 (x : Int) : Prop := -2147483648 ≤ x ∧ x ≤ 2147483647

/-- A span built of the columns of a store row or of a report, each a 32-bit number. -/
structure AdmittedSpan extends ChannelSpan where
  admitted : ∃ channel label width, (∀ c, channel = some c → FitsI32 c) ∧
    (∀ w, width = some w → FitsI32 w) ∧ ChannelSpan.new channel label width = some toChannelSpan

section

variable {α : Type} {f : Int → Option α} {v : α} {x a b : Int}

theorem fit_bind : (I32.checked.fit x).bind f = some v ↔ FitsI32 x ∧ f x = some v := by
  unfold I32.checked FitsI32
  dsimp only
  split
  next fits => simp [fits]
  next fails => simp [fails]

theorem fit_eq_some {y : Int} : I32.checked.fit x = some y ↔ FitsI32 x ∧ x = y := by
  unfold I32.checked FitsI32
  dsimp only
  split
  next fits => simp [fits]
  next fails => simp [fails]

theorem quot_eq (low : 0 ≤ a) (high : a ≤ 2147483647) (divides : 0 < b) :
    I32.checked.quot a b = some (a / b) := by
  have value : a.tdiv b = a / b := Int.tdiv_eq_ediv_of_nonneg low
  have small : a / b ≤ a := Int.ediv_le_self b low
  unfold I32.checked
  dsimp only
  rw [value, if_neg (by omega)]

theorem centredSpan_checked {p : Int × Int} : centredSpan I32.checked a b = some p ↔
    FitsI32 (a - b) ∧ FitsI32 (a + b) ∧ around a b = p := by
  simp only [centredSpan, bind, fit_bind, pure, Option.some.injEq, around]

end

namespace AdmittedSpan

theorem wide (s : AdmittedSpan) : 0 < s.widthMhz ∧ s.widthMhz ≤ 2147483647 := by
  obtain ⟨channel, label, width, _, fits, made⟩ := s.admitted
  unfold ChannelSpan.new at made
  simp only [bind, Option.bind_eq_some_iff] at made
  obtain ⟨_, _, _, _, _, _, made⟩ := made
  have assumed : (0 : Int) < 20 ∧ (20 : Int) ≤ 2147483647 := by decide
  rw [← Option.some.inj made]
  cases width with
  | none => exact assumed
  | some w =>
    dsimp only
    split
    next positive => exact ⟨positive, (fits w rfl).2⟩
    next => exact assumed

end AdmittedSpan

/-- The doubled centre of a radio in a band laid out from `base` and `anchor`: that of its primary
channel, or that of the block which the channel falls into. -/
def gridCentre (anchor base channel width : Int) : Int :=
  if width < 5 ∨ channel < anchor then 2 * (base + 5 * channel)
  else 2 * (base + 5 * (channel - (channel - anchor) % (width / 5) + width / 5 / 2 - 2))

/-- A channel and a width whose place is within 32 bits. -/
def GridFits (anchor base channel width : Int) : Prop :=
  FitsI32 (5 * channel) ∧ FitsI32 (base + 5 * channel) ∧
    FitsI32 (gridCentre anchor base channel width - width) ∧
    FitsI32 (gridCentre anchor base channel width + width)

/-- The condition on one radio; in 2.4 GHz it is on the width alone. -/
def ChannelSpan.PlaceFits (s : ChannelSpan) : Prop :=
  match s.band with
  | .twoGhz => ∀ primary, s.band.centre s.channel = some primary →
    20 < s.widthMhz → FitsI32 (2 * primary + 2 * s.widthMhz - 20)
  | .fiveGhz => GridFits 36 5000 s.channel s.widthMhz
  | .sixGhz => GridFits 1 5950 s.channel s.widthMhz

section

variable {s : ChannelSpan} {r : List (Int × Int) × Bool}

theorem primaryCentreMhz_twoGhz (channel : Int) :
    Band.primaryCentreMhz I32.checked .twoGhz channel = some (Band.centre .twoGhz channel) := by
  unfold Band.primaryCentreMhz Band.centre
  dsimp only
  split
  next => rfl
  next =>
    split
    next inside =>
      simp only [bind, Option.bind_eq_some_iff, fit_eq_some, pure]
      exact ⟨5 * channel, ⟨⟨by omega, by omega⟩, rfl⟩, 2407 + 5 * channel,
        ⟨⟨by omega, by omega⟩, rfl⟩, rfl⟩
    next => rfl

theorem centre_twoGhz {channel primary : Int}
    (centred : Band.centre .twoGhz channel = some primary) : 2412 ≤ primary ∧ primary ≤ 2484 := by
  unfold Band.centre at centred
  dsimp only at centred
  split at centred
  next =>
    cases centred
    omega
  next =>
    split at centred
    next =>
      cases centred
      omega
    next => cases centred

theorem candidateSpans_checked_twoGhz (band : s.band = .twoGhz) (wide : 0 < s.widthMhz)
    (fits : s.widthMhz ≤ 2147483647) :
    candidateSpans I32.checked s = some r ↔ s.PlaceFits ∧ s.placements = r := by
  unfold candidateSpans ChannelSpan.placements ChannelSpan.PlaceFits
  rw [band, primaryCentreMhz_twoGhz]
  dsimp only [Band.blockAnchor]
  cases centred : Band.centre .twoGhz s.channel with
  | none => simp [bind, pure]
  | some primary =>
    have near := centre_twoGhz centred
    simp only [bind, Option.bind_some, if_true, Option.some.injEq, forall_eq']
    split
    next narrow =>
      simp only [Option.bind_eq_some_iff, fit_eq_some, centredSpan_checked, pure,
        Option.some.injEq, and_assoc, exists_and_left, exists_eq_left', FitsI32]
      by_cases value : ([around (2 * primary) s.widthMhz], false) = r
      · simp only [value, and_true]
        omega
      · simp only [value, and_false]
    next broad =>
      simp only [Option.bind_eq_some_iff, fit_eq_some, centredSpan_checked, pure,
        Option.some.injEq, and_assoc, exists_and_left, exists_eq_left', FitsI32]
      by_cases value : ([around (2 * primary + (s.widthMhz - 20)) s.widthMhz,
          around (2 * primary - (s.widthMhz - 20)) s.widthMhz], true) = r
      · simp only [value, and_true]
        omega
      · simp only [value, and_false]

theorem candidateSpans_checked_grid {anchor base : Int} (wide : 0 < s.widthMhz)
    (fits : s.widthMhz ≤ 2147483647) (place : 0 < anchor ∧ anchor ≤ 36)
    (frequency : 5000 ≤ base ∧ base ≤ 5950)
    (anchored : s.band.blockAnchor = some anchor)
    (checked : ∀ channel, s.band.primaryCentreMhz I32.checked channel =
      (I32.checked.fit (5 * channel)).bind fun five =>
        (I32.checked.fit (base + five)).bind fun centre => some (some centre))
    (centred : ∀ channel, s.band.centre channel = some (base + 5 * channel)) :
    candidateSpans I32.checked s = some r ↔
      GridFits anchor base s.channel s.widthMhz ∧ s.placements = r := by
  have outside : s.band ≠ .twoGhz := by
    intro band
    rw [band] at anchored
    cases anchored
  have narrow : s.widthMhz / 5 ≤ 0 ↔ s.widthMhz < 5 := by omega
  have step : I32.checked.quot s.widthMhz 5 = some (s.widthMhz / 5) :=
    quot_eq (by omega) fits (by decide)
  unfold candidateSpans ChannelSpan.placements GridFits gridCentre
  simp only [centred, anchored, checked, step, bind, pure, if_neg outside, Option.bind_some,
    Option.bind_assoc, fit_bind, and_assoc, and_congr_right_iff, narrow]
  intro five primary
  by_cases low : s.widthMhz < 5 ∨ s.channel < anchor
  · simp only [if_pos low, Option.bind_eq_some_iff, fit_eq_some, centredSpan_checked,
      Option.some.injEq, and_assoc, exists_and_left, exists_eq_left', FitsI32]
    by_cases value : ([around (2 * (base + 5 * s.channel)) s.widthMhz], true) = r
    · simp only [value, and_true]
      omega
    · simp only [value, and_false]
  · have inside := low
    rw [not_or, not_lt, not_lt] at inside
    have positive : 0 < s.widthMhz / 5 := by omega
    have blocks : I32.checked.quot (s.channel - anchor) (s.widthMhz / 5) =
        some ((s.channel - anchor) / (s.widthMhz / 5)) := by
      unfold FitsI32 at five
      exact quot_eq (by omega) (by omega) positive
    have half : I32.checked.quot (s.widthMhz / 5) 2 = some (s.widthMhz / 5 / 2) :=
      quot_eq (by omega) (by omega) (by decide)
    have rest := Int.emod_nonneg (s.channel - anchor) positive.ne'
    have short := Int.emod_lt_of_pos (s.channel - anchor) positive
    have whole := Int.mul_ediv_add_emod (s.channel - anchor) (s.widthMhz / 5)
    have least := Int.ediv_nonneg (Int.sub_nonneg.mpr inside.2) (Int.le_of_lt positive)
    rw [Int.mul_comm] at whole
    -- The block's start behind the anchor is no product to what follows.
    generalize start : (s.channel - anchor) / (s.widthMhz / 5) * (s.widthMhz / 5) = behind at whole
    have centre : 2 * (base + 5 * s.channel +
        5 * (blockCentre anchor s.channel s.widthMhz - s.channel)) =
        2 * (base + 5 * (anchor + behind + s.widthMhz / 5 / 2 - 2)) := by
      unfold blockCentre
      rw [start]
      omega
    simp only [if_neg low, Option.bind_eq_some_iff, fit_eq_some, centredSpan_checked,
      Option.some.injEq, and_assoc, exists_and_left, exists_eq_left', blocks, half, start, centre,
      FitsI32] at five primary ⊢
    by_cases value : ([around (2 * (base + 5 * (anchor + behind + s.widthMhz / 5 / 2 - 2)))
        s.widthMhz], false) = r
    · simp only [value, and_true]
      clear start value least
      generalize (s.channel - anchor) % (s.widthMhz / 5) = after at *
      omega
    · simp only [value, and_false]

theorem candidateSpans_checked (wide : 0 < s.widthMhz) (fits : s.widthMhz ≤ 2147483647) :
    candidateSpans I32.checked s = some r ↔ s.PlaceFits ∧ s.placements = r := by
  cases band : s.band with
  | twoGhz => exact candidateSpans_checked_twoGhz band wide fits
  | fiveGhz =>
    have place : s.PlaceFits ↔ GridFits 36 5000 s.channel s.widthMhz := by
      unfold ChannelSpan.PlaceFits
      rw [band]
    rw [place]
    refine candidateSpans_checked_grid wide fits (by decide) (by decide) ?_ ?_ ?_
    · rw [band]
      rfl
    · rw [band]
      intro channel
      rfl
    · rw [band]
      intro channel
      rfl
  | sixGhz =>
    have place : s.PlaceFits ↔ GridFits 1 5950 s.channel s.widthMhz := by
      unfold ChannelSpan.PlaceFits
      rw [band]
    rw [place]
    refine candidateSpans_checked_grid wide fits (by decide) (by decide) ?_ ?_ ?_
    · rw [band]
      rfl
    · rw [band]
      intro channel
      rfl
    · rw [band]
      intro channel
      rfl

end

/-- A fold that fails for an element or not, whatever it has gathered. -/
theorem isSome_foldlM {α β : Type} {f : β → α → Option β} {P : α → Prop}
    (step : ∀ acc a, (f acc a).isSome ↔ P a) (as : List α) (acc : β) :
    (as.foldlM f acc).isSome ↔ ∀ a ∈ as, P a := by
  induction as generalizing acc with
  | nil => simp
  | cons a as ih =>
    rw [List.foldlM_cons, List.forall_mem_cons, ← step acc a]
    cases f acc a with
    | none => simp
    | some next => simp [bind, ih next]

theorem bestFraction_checked (narrower : Int) {own other : List (Int × Int)} :
    (bestFraction I32.checked narrower own other).isSome ↔
      ∀ a ∈ own, ∀ b ∈ other, FitsI32 (min a.2 b.2 - max a.1 b.1) := by
  refine isSome_foldlM (fun best a => isSome_foldlM (fun best b => ?_) other best) own 0
  rw [Option.isSome_iff_exists]
  simp only [bind, fit_bind, pure, exists_and_left]
  exact and_iff_left ⟨_, rfl⟩

/-- The condition on two radios of one band: the gap between their places is within 32 bits. -/
def GapFits (anchor base : Int) (own other : ChannelSpan) : Prop :=
  let ownCentre := gridCentre anchor base own.channel own.widthMhz
  let otherCentre := gridCentre anchor base other.channel other.widthMhz
  (-2147483648 ≤ ownCentre + own.widthMhz - (otherCentre - other.widthMhz)) ∧
    -2147483648 ≤ otherCentre + other.widthMhz - (ownCentre - own.widthMhz)

def PairFits (own other : ChannelSpan) : Prop :=
  min own.widthMhz other.widthMhz ≤ 1073741823 ∧
    (own.band = other.band →
      match own.band with
      | .twoGhz => True
      | .fiveGhz => GapFits 36 5000 own other
      | .sixGhz => GapFits 1 5950 own other)

section

variable {own other : ChannelSpan}

theorem placements_grid {anchor base : Int} {s : ChannelSpan}
    (anchored : s.band.blockAnchor = some anchor)
    (centred : ∀ channel, s.band.centre channel = some (base + 5 * channel)) :
    s.placements.1 = [around (gridCentre anchor base s.channel s.widthMhz) s.widthMhz] := by
  unfold ChannelSpan.placements gridCentre
  rw [centred, anchored]
  dsimp only
  split
  next => rfl
  next inside =>
    have whole := Int.mul_ediv_add_emod (s.channel - anchor) (s.widthMhz / 5)
    rw [Int.mul_comm] at whole
    have centre : 2 * (base + 5 * s.channel +
        5 * (blockCentre anchor s.channel s.widthMhz - s.channel)) =
        2 * (base + 5 * (s.channel - (s.channel - anchor) % (s.widthMhz / 5) +
          s.widthMhz / 5 / 2 - 2)) := by
      unfold blockCentre
      omega
    rw [centre]

theorem gaps_grid {anchor base : Int} (wide : 0 < own.widthMhz) (wide' : 0 < other.widthMhz)
    (narrow : min own.widthMhz other.widthMhz ≤ 1073741823)
    (ours : own.placements.1 =
      [around (gridCentre anchor base own.channel own.widthMhz) own.widthMhz])
    (theirs : other.placements.1 =
      [around (gridCentre anchor base other.channel other.widthMhz) other.widthMhz]) :
    (∀ a ∈ own.placements.1, ∀ b ∈ other.placements.1,
      FitsI32 (min a.2 b.2 - max a.1 b.1)) ↔ GapFits anchor base own other := by
  rw [ours, theirs]
  simp only [List.forall_mem_singleton]
  unfold FitsI32 GapFits around
  dsimp only
  omega

/-- In 2.4 GHz no place is far from another. -/
theorem near_twoGhz {s : ChannelSpan} (band : s.band = .twoGhz) (wide : 0 < s.widthMhz)
    {p : Int × Int} (mem : p ∈ s.placements.1) : p.1 ≤ 4968 ∧ 4824 ≤ p.2 := by
  unfold ChannelSpan.placements at mem
  rw [band] at mem
  split at mem
  next => cases mem
  next primary centred =>
    have near := centre_twoGhz centred
    dsimp only [Band.blockAnchor] at mem
    split at mem
    next =>
      rw [List.mem_singleton.mp mem]
      unfold around
      dsimp only
      omega
    next =>
      rcases List.mem_cons.mp mem with rfl | mem
      · unfold around
        dsimp only
        omega
      · rw [List.mem_singleton.mp mem]
        unfold around
        dsimp only
        omega

theorem gaps_twoGhz (wide : 0 < own.widthMhz) (wide' : 0 < other.widthMhz)
    (narrow : min own.widthMhz other.widthMhz ≤ 1073741823) (band : own.band = .twoGhz)
    (band' : other.band = .twoGhz) {a b : Int × Int} (memA : a ∈ own.placements.1)
    (memB : b ∈ other.placements.1) : FitsI32 (min a.2 b.2 - max a.1 b.1) := by
  have nearA := near_twoGhz band wide memA
  have nearB := near_twoGhz band' wide' memB
  have widthA := width_of_placement memA
  have widthB := width_of_placement memB
  unfold FitsI32
  omega

theorem gaps_iff (wide : 0 < own.widthMhz) (wide' : 0 < other.widthMhz)
    (narrow : min own.widthMhz other.widthMhz ≤ 1073741823) (same : own.band = other.band) :
    (∀ a ∈ own.placements.1, ∀ b ∈ other.placements.1, FitsI32 (min a.2 b.2 - max a.1 b.1)) ↔
      match own.band with
      | .twoGhz => True
      | .fiveGhz => GapFits 36 5000 own other
      | .sixGhz => GapFits 1 5950 own other := by
  cases band : own.band with
  | twoGhz =>
    refine iff_of_true ?_ trivial
    intro a memA b memB
    exact gaps_twoGhz wide wide' narrow band (same.symm.trans band) memA memB
  | fiveGhz =>
    refine gaps_grid wide wide' narrow (placements_grid ?_ ?_) (placements_grid ?_ ?_)
    · rw [band]
      rfl
    · rw [band]
      exact fun channel => rfl
    · rw [← same, band]
      rfl
    · rw [← same, band]
      exact fun channel => rfl
  | sixGhz =>
    refine gaps_grid wide wide' narrow (placements_grid ?_ ?_) (placements_grid ?_ ?_)
    · rw [band]
      rfl
    · rw [band]
      exact fun channel => rfl
    · rw [← same, band]
      rfl
    · rw [← same, band]
      exact fun channel => rfl

end

theorem isSome_fit_bind {α : Type} {x : Int} {f : Int → Option α} :
    ((I32.checked.fit x).bind f).isSome ↔ FitsI32 x ∧ (f x).isSome := by
  rw [Option.isSome_iff_exists, Option.isSome_iff_exists]
  simp only [fit_bind, exists_and_left]

theorem AdmittedSpan.isSome_spans_bind (s : AdmittedSpan) {α : Type}
    {f : List (Int × Int) × Bool → Option α} :
    ((candidateSpans I32.checked s.toChannelSpan).bind f).isSome ↔
      s.PlaceFits ∧ (f s.placements).isSome := by
  rw [Option.isSome_iff_exists, Option.isSome_iff_exists]
  simp only [Option.bind_eq_some_iff, candidateSpans_checked s.wide.1 s.wide.2, and_assoc,
    exists_and_left, exists_eq_left']

theorem frequencyExtent_checked (s : AdmittedSpan) :
    (s.frequencyExtent I32.checked).isSome ↔ s.PlaceFits := by
  unfold ChannelSpan.frequencyExtent
  exact s.isSome_spans_bind.trans (and_iff_left rfl)

theorem overlapHypothesis_checked (own other : AdmittedSpan) (rssi : Option Int) :
    (overlapHypothesis I32.checked own.toChannelSpan other.toChannelSpan rssi).isSome ↔
      own.PlaceFits ∧ other.PlaceFits ∧ PairFits own.toChannelSpan other.toChannelSpan := by
  obtain ⟨wide, fits⟩ := own.wide
  obtain ⟨wide', fits'⟩ := other.wide
  have narrower : FitsI32 (min own.widthMhz other.widthMhz * 2) ↔
      min own.widthMhz other.widthMhz ≤ 1073741823 := by
    unfold FitsI32
    omega
  have positive : ¬ min own.widthMhz other.widthMhz * 2 ≤ 0 := by omega
  unfold overlapHypothesis PairFits
  simp only [bind, AdmittedSpan.isSome_spans_bind, isSome_fit_bind, narrower,
    or_iff_left positive, and_congr_right_iff]
  intro _ _ narrow
  by_cases same : own.band = other.band
  · rw [if_neg (not_not.mpr same), ← gaps_iff wide wide' narrow same,
      ← bestFraction_checked (min own.widthMhz other.widthMhz * 2), Option.isSome_bind]
    simp [same, pure]
  · rw [if_pos same]
    exact iff_of_true rfl fun absurd_ => absurd absurd_ same

theorem signal_checked (o : AirObservation) : (o.signal I32.checked).isSome ↔
    ∀ rssi noise, o.rssiDbm = some rssi → o.noiseDbm = some noise → FitsI32 (rssi - noise) := by
  unfold AirObservation.signal
  split
  next rssi noise given given' =>
    rw [given, given', Option.isSome_iff_exists]
    simp only [bind, fit_bind, pure, exists_and_left, Option.some.injEq]
    constructor
    · rintro ⟨fits, _⟩ _ _ rfl rfl
      exact fits
    · intro fits
      exact ⟨fits rssi noise rfl rfl, _, rfl⟩
  next apart =>
    refine iff_of_true rfl ?_
    intro rssi noise given given'
    exact absurd given' (apart rssi noise given)

/-- When the arithmetic on reported radio values stays within 32 bits and never divides by zero,
for any two admitted radios and any observation. -/
theorem air_arithmetic_fits_iff (own other : AdmittedSpan) (rssi : Option Int)
    (o : AirObservation) :
    ((own.frequencyExtent I32.checked).isSome ∧
      (overlapHypothesis I32.checked own.toChannelSpan other.toChannelSpan rssi).isSome ∧
      (o.signal I32.checked).isSome) ↔
    (own.PlaceFits ∧ other.PlaceFits ∧ PairFits own.toChannelSpan other.toChannelSpan) ∧
      ∀ rssi noise, o.rssiDbm = some rssi → o.noiseDbm = some noise → FitsI32 (rssi - noise) := by
  rw [frequencyExtent_checked, overlapHypothesis_checked, signal_checked, ← and_assoc]
  refine and_congr_left fun _ => and_iff_right_of_imp ?_
  exact fun whole => whole.1

/-- The greatest channel number in 5 GHz, a width of half the numbers in 2.4 GHz, and a signal
far above its noise: the first two admitted, none computed within 32 bits. -/
theorem reported_values_overflow :
    (∃ s : AdmittedSpan, s.toChannelSpan = ⟨2147483647, .fiveGhz, 20, false⟩ ∧
      s.frequencyExtent I32.checked = none) ∧
    (∃ s : AdmittedSpan, s.toChannelSpan = ⟨6, .twoGhz, 1073741824, false⟩ ∧
      overlapHypothesis I32.checked s.toChannelSpan s.toChannelSpan none = none) ∧
    AirObservation.signal I32.checked
      ⟨none, none, none, none, none, some 2147483647, some (-1)⟩ = none := by
  refine ⟨⟨⟨_, some 2147483647, some "5ghz", some 20, ?_, ?_, rfl⟩, rfl, rfl⟩,
    ⟨⟨_, some 6, some "2ghz", some 1073741824, ?_, ?_, rfl⟩, rfl, rfl⟩, rfl⟩
  all_goals
    intro x given
    cases given
    exact ⟨by decide, by decide⟩

end NetObserver
