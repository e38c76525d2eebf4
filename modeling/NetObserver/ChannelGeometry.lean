import Mathlib.Tactic.Linarith
import NetObserver.ChannelSpan

/-! The placements of a radio against the 20 MHz channel that it reports, and the laws of the
overlap of two radios. -/

namespace NetObserver

/-- The centre of a channel, where the band has the channel. -/
def Band.centre (band : Band) (channel : Int) : Option Int :=
  match band with
  | .twoGhz =>
    if channel = 14 then some 2484
    else if 1 ≤ channel ∧ channel ≤ 13 then some (2407 + 5 * channel)
    else none
  | .fiveGhz => some (5000 + 5 * channel)
  | .sixGhz => some (5950 + 5 * channel)

/-- The channel in the middle of the block that a channel falls into, the blocks laid from the
anchor on. -/
def blockCentre (anchor channel width : Int) : Int :=
  anchor + (channel - anchor) / (width / 5) * (width / 5) + width / 5 / 2 - 2

def around (doubledCentre width : Int) : Int × Int := (doubledCentre - width, doubledCentre + width)

/-- Where the code places a radio of a positive width. -/
def ChannelSpan.placements (s : ChannelSpan) : List (Int × Int) × Bool :=
  match s.band.centre s.channel with
  | none => ([], true)
  | some primary =>
    match s.band.blockAnchor with
    | none =>
      if s.widthMhz ≤ 20 then ([around (2 * primary) s.widthMhz], false)
      else
        ([around (2 * primary + (s.widthMhz - 20)) s.widthMhz,
          around (2 * primary - (s.widthMhz - 20)) s.widthMhz], true)
    | some anchor =>
      if s.widthMhz < 5 ∨ s.channel < anchor then ([around (2 * primary) s.widthMhz], true)
      else
        ([around (2 * (primary + 5 * (blockCentre anchor s.channel s.widthMhz - s.channel)))
          s.widthMhz], false)

@[simp] theorem I32.exact_fit (x : Int) : I32.exact.fit x = x := rfl

@[simp] theorem I32.exact_quot (a b : Int) : I32.exact.quot a b = a.tdiv b := rfl

section

variable {s : ChannelSpan}

theorem primaryCentreMhz_exact (band : Band) (channel : Int) :
    band.primaryCentreMhz I32.exact channel = band.centre channel := by
  cases band <;> rfl

theorem candidateSpans_twoGhz (band : s.band = .twoGhz) :
    candidateSpans I32.exact s = s.placements := by
  unfold candidateSpans ChannelSpan.placements
  rw [primaryCentreMhz_exact, band]
  dsimp only [Band.blockAnchor]
  cases Band.centre .twoGhz s.channel with
  | none => rfl
  | some primary =>
    dsimp only [bind]
    rw [if_pos rfl]
    split
    next => rfl
    next => rfl

theorem candidateSpans_grid (anchor base : Int) (wide : 0 < s.widthMhz)
    (anchored : s.band.blockAnchor = some anchor)
    (centred : ∀ channel, s.band.centre channel = some (base + 5 * channel)) :
    candidateSpans I32.exact s = s.placements := by
  have outside : s.band ≠ .twoGhz := by
    intro band
    rw [band] at anchored
    cases anchored
  have step : s.widthMhz.tdiv 5 = s.widthMhz / 5 :=
    Int.tdiv_eq_ediv_of_nonneg (Int.le_of_lt wide)
  have narrow : s.widthMhz / 5 ≤ 0 ↔ s.widthMhz < 5 := by omega
  unfold candidateSpans ChannelSpan.placements
  simp only [primaryCentreMhz_exact, centred, anchored, I32.exact_fit, I32.exact_quot, bind, pure,
    step, narrow, if_neg outside]
  split
  next => rfl
  next inside =>
    rw [not_or, not_lt, not_lt] at inside
    have behind : (s.channel - anchor).tdiv (s.widthMhz / 5) =
        (s.channel - anchor) / (s.widthMhz / 5) :=
      Int.tdiv_eq_ediv_of_nonneg (by omega)
    have half : (s.widthMhz / 5).tdiv 2 = s.widthMhz / 5 / 2 :=
      Int.tdiv_eq_ediv_of_nonneg (by omega)
    have centre : base + 5 * blockCentre anchor s.channel s.widthMhz = base + 5 * s.channel +
        5 * (blockCentre anchor s.channel s.widthMhz - s.channel) := by
      omega
    rw [behind, half, ← centre]
    rfl

theorem candidateSpans_exact (wide : 0 < s.widthMhz) :
    candidateSpans I32.exact s = s.placements := by
  cases band : s.band with
  | twoGhz => exact candidateSpans_twoGhz band
  | fiveGhz =>
    refine candidateSpans_grid 36 5000 wide ?_ ?_
    · rw [band]
      rfl
    · intro channel
      rw [band]
      rfl
  | sixGhz =>
    refine candidateSpans_grid 1 5950 wide ?_ ?_
    · rw [band]
      rfl
    · intro channel
      rw [band]
      rfl

end

/-- The fraction of a width, in doubled MHz, that two placements share. -/
def sharedFraction (narrower : Int) (a b : Int × Int) : ℚ :=
  min (((max (min a.2 b.2 - max a.1 b.1) 0 : Int) : ℚ) / narrower) 1

/-- The greatest of them over the placements of two radios. -/
def greatestFraction (narrower : Int) (own other : List (Int × Int)) : ℚ :=
  own.foldl (fun best a => other.foldl (fun best b => max best (sharedFraction narrower a b)) best) 0

section

variable {narrower : Int} {own other : List (Int × Int)} {bound : ℚ}

theorem bestFraction_exact :
    bestFraction I32.exact narrower own other = greatestFraction narrower own other := by
  have step (best fraction : ℚ) : (if best < fraction then fraction else best) =
      max best fraction := by
    rw [max_def]
    split <;> split <;> linarith
  have inner (a : Int × Int) (best : ℚ) : (other.foldlM (fun best b => do
      let shared := max (← I32.exact.fit (min a.2 b.2 - max a.1 b.1)) 0
      let fraction := min ((shared : ℚ) / narrower) 1
      pure (if best < fraction then fraction else best)) best : Id ℚ) =
      other.foldl (fun best b => max best (sharedFraction narrower a b)) best := by
    induction other generalizing best with
    | nil => rfl
    | cons b rest ih =>
      rw [List.foldlM_cons, List.foldl_cons, ← ih, ← step]
      rfl
  unfold bestFraction greatestFraction
  generalize (0 : ℚ) = best
  induction own generalizing best with
  | nil => rfl
  | cons a rest ih =>
    rw [List.foldlM_cons, List.foldl_cons, ← inner]
    exact ih _

/-- What the greatest of them is: the least bound of 0 and all of them. -/
theorem greatestFraction_le : greatestFraction narrower own other ≤ bound ↔
    0 ≤ bound ∧ ∀ a ∈ own, ∀ b ∈ other, sharedFraction narrower a b ≤ bound := by
  have inner (a : Int × Int) (best : ℚ) :
      other.foldl (fun best b => max best (sharedFraction narrower a b)) best ≤ bound ↔
        best ≤ bound ∧ ∀ b ∈ other, sharedFraction narrower a b ≤ bound := by
    induction other generalizing best with
    | nil => simp
    | cons b rest ih => rw [List.foldl_cons, ih, max_le_iff, List.forall_mem_cons, and_assoc]
  have outer (best : ℚ) : own.foldl (fun best a => other.foldl
      (fun best b => max best (sharedFraction narrower a b)) best) best ≤ bound ↔
        best ≤ bound ∧ ∀ a ∈ own, ∀ b ∈ other, sharedFraction narrower a b ≤ bound := by
    induction own generalizing best with
    | nil => simp
    | cons a rest ih => rw [List.foldl_cons, ih, inner, List.forall_mem_cons, and_assoc]
  exact outer 0

theorem sharedFraction_comm (a b : Int × Int) :
    sharedFraction narrower a b = sharedFraction narrower b a := by
  unfold sharedFraction
  rw [min_comm a.2, max_comm a.1]

theorem greatestFraction_comm :
    greatestFraction narrower own other = greatestFraction narrower other own := by
  refine le_antisymm ?_ ?_
  · obtain ⟨positive, all⟩ := greatestFraction_le.mp (le_refl (greatestFraction narrower other own))
    refine greatestFraction_le.mpr ⟨positive, ?_⟩
    intro a memA b memB
    rw [sharedFraction_comm]
    exact all b memB a memA
  · obtain ⟨positive, all⟩ := greatestFraction_le.mp (le_refl (greatestFraction narrower own other))
    refine greatestFraction_le.mpr ⟨positive, ?_⟩
    intro b memB a memA
    rw [sharedFraction_comm]
    exact all a memA b memB

theorem greatestFraction_nonneg : 0 ≤ greatestFraction narrower own other :=
  (greatestFraction_le.mp (le_refl _)).1

theorem greatestFraction_le_one : greatestFraction narrower own other ≤ 1 := by
  refine greatestFraction_le.mpr ⟨zero_le_one, ?_⟩
  intro a _ b _
  exact min_le_right _ _

/-- A placement shares all of itself with itself. -/
theorem greatestFraction_self (positive : 0 < narrower) {a : Int × Int} (mem : a ∈ own)
    (width : a.2 - a.1 = narrower) : greatestFraction narrower own own = 1 := by
  refine le_antisymm greatestFraction_le_one ?_
  have all := (greatestFraction_le.mp (le_refl (greatestFraction narrower own own))).2 a mem a mem
  have whole : sharedFraction narrower a a = 1 := by
    unfold sharedFraction
    rw [min_self, max_self, width, max_eq_left (Int.le_of_lt positive), div_self, min_self]
    exact_mod_cast positive.ne'
  rw [whole] at all
  exact all

/-- Where anything is shared, two of the placements meet. -/
theorem exists_meeting (positive : 0 < greatestFraction narrower own other) :
    ∃ a ∈ own, ∃ b ∈ other, max a.1 b.1 < min a.2 b.2 := by
  by_contra apart
  refine absurd positive (not_lt.mpr (greatestFraction_le.mpr ⟨le_refl 0, ?_⟩))
  intro a memA b memB
  have shared : max (min a.2 b.2 - max a.1 b.1) 0 = 0 := by
    have disjoint : ¬ max a.1 b.1 < min a.2 b.2 := fun meet => apart ⟨a, memA, b, memB, meet⟩
    omega
  unfold sharedFraction
  rw [shared, Int.cast_zero, zero_div]
  exact min_le_left _ _

end

section

variable {s own other : ChannelSpan}

/-- Every placement is a width about some centre. -/
theorem mem_placements {p : Int × Int} (mem : p ∈ s.placements.1) :
    ∃ doubledCentre, p = around doubledCentre s.widthMhz := by
  unfold ChannelSpan.placements at mem
  split at mem
  next => cases mem
  next primary _ =>
    split at mem
    next =>
      split at mem
      next => exact ⟨_, List.mem_singleton.mp mem⟩
      next =>
        rcases List.mem_cons.mp mem with rfl | mem
        · exact ⟨_, rfl⟩
        · exact ⟨_, List.mem_singleton.mp mem⟩
    next =>
      split at mem
      next => exact ⟨_, List.mem_singleton.mp mem⟩
      next => exact ⟨_, List.mem_singleton.mp mem⟩

theorem width_of_placement {p : Int × Int} (mem : p ∈ s.placements.1) :
    p.2 - p.1 = 2 * s.widthMhz := by
  obtain ⟨centre, rfl⟩ := mem_placements mem
  unfold around
  omega

theorem exists_placement {primary : Int} (centred : s.band.centre s.channel = some primary) :
    ∃ p, p ∈ s.placements.1 := by
  unfold ChannelSpan.placements
  rw [centred]
  dsimp only
  split
  next => split <;> exact ⟨_, List.mem_cons_self⟩
  next => split <;> exact ⟨_, List.mem_cons_self⟩

theorem frequencyExtent_exact (wide : 0 < s.widthMhz) {p : Int × Int} (mem : p ∈ s.placements.1) :
    ∃ extent, s.frequencyExtent I32.exact = some extent ∧ extent.loMhz ≤ p.1 / 2 ∧
      (p.2 : ℚ) / 2 ≤ extent.hiMhz := by
  have low := List.isSome_min?_of_mem (List.mem_map_of_mem (f := Prod.fst) mem)
  have high := List.isSome_max?_of_mem (List.mem_map_of_mem (f := Prod.snd) mem)
  obtain ⟨lo, least⟩ := Option.isSome_iff_exists.mp low
  obtain ⟨hi, greatest⟩ := Option.isSome_iff_exists.mp high
  have below : lo ≤ p.1 := (List.min?_eq_some_iff.mp least).2 _ (List.mem_map_of_mem mem)
  have above : p.2 ≤ hi := (List.max?_eq_some_iff.mp greatest).2 _ (List.mem_map_of_mem mem)
  refine ⟨⟨lo / 2, hi / 2, s.placements.2, decide (1 < s.placements.1.length)⟩, ?_, ?_, ?_⟩
  · unfold ChannelSpan.frequencyExtent
    rw [candidateSpans_exact wide]
    dsimp only [bind]
    rw [least, greatest]
    rfl
  · have cast : (lo : ℚ) ≤ p.1 := by exact_mod_cast below
    dsimp only
    linarith
  · have cast : (p.2 : ℚ) ≤ hi := by exact_mod_cast above
    dsimp only
    linarith

theorem overlapHypothesis_exact (wide : 0 < own.widthMhz) (wide' : 0 < other.widthMhz)
    (rssi : Option Int) : overlapHypothesis I32.exact own other rssi =
      { overlap :=
          if own.band ≠ other.band then 0
          else greatestFraction (min own.widthMhz other.widthMhz * 2) own.placements.1
            other.placements.1
        rssiDbm := rssi
        confidence :=
          if own.widthAssumed || other.widthAssumed ||
            (own.band == other.band && (own.placements.2 || other.placements.2)) then .low
          else if rssi.isNone then .medium
          else .high } := by
  have positive : ¬ min own.widthMhz other.widthMhz * 2 ≤ 0 := by omega
  unfold overlapHypothesis
  rw [candidateSpans_exact wide, candidateSpans_exact wide']
  simp only [I32.exact_fit, bind, pure, or_iff_left positive, bestFraction_exact]
  split <;> rfl

end

/-- The laws of the overlap of two radios, the fraction an exact one. -/
structure OverlapLaws (own other : ChannelSpan) (rssi : Option Int) : Prop where
  symmetric : overlapHypothesis I32.exact own other rssi = overlapHypothesis I32.exact other own rssi
  nonneg : 0 ≤ (overlapHypothesis I32.exact own other rssi).run.overlap
  le_one : (overlapHypothesis I32.exact own other rssi).run.overlap ≤ 1
  itself : (overlapHypothesis I32.exact own own rssi).run.overlap = 1
  across : own.band ≠ other.band → (overlapHypothesis I32.exact own other rssi).run.overlap = 0
  meets : 0 < (overlapHypothesis I32.exact own other rssi).run.overlap →
    ∃ e f, own.frequencyExtent I32.exact = some e ∧ other.frequencyExtent I32.exact = some f ∧
      max e.loMhz f.loMhz < min e.hiMhz f.hiMhz

/-- The laws hold of all radios of a positive width that the band has a place for. -/
theorem overlapLaws {own other : ChannelSpan} (wide : 0 < own.widthMhz) (wide' : 0 < other.widthMhz)
    {primary : Int} (centred : own.band.centre own.channel = some primary) (rssi : Option Int) :
    OverlapLaws own other rssi := by
  constructor
  case symmetric =>
    rw [overlapHypothesis_exact wide wide', overlapHypothesis_exact wide' wide,
      Bool.or_comm own.widthAssumed, Bool.or_comm own.placements.2, BEq.comm (a := own.band),
      greatestFraction_comm, min_comm]
    simp only [ne_comm (a := own.band)]
  case nonneg =>
    rw [overlapHypothesis_exact wide wide']
    dsimp only [Id.run]
    split
    next => exact le_refl 0
    next => exact greatestFraction_nonneg
  case le_one =>
    rw [overlapHypothesis_exact wide wide']
    dsimp only [Id.run]
    split
    next => exact zero_le_one
    next => exact greatestFraction_le_one
  case itself =>
    obtain ⟨p, mem⟩ := exists_placement centred
    have width := width_of_placement mem
    rw [overlapHypothesis_exact wide wide]
    dsimp only [Id.run]
    rw [if_neg (not_not.mpr rfl), min_self]
    exact greatestFraction_self (by omega) mem (by omega)
  case across =>
    intro apart
    rw [overlapHypothesis_exact wide wide']
    exact if_pos apart
  case meets =>
    intro positive
    rw [overlapHypothesis_exact wide wide'] at positive
    dsimp only [Id.run] at positive
    split at positive
    next => exact absurd positive (lt_irrefl 0)
    next =>
      obtain ⟨a, memA, b, memB, meet⟩ := exists_meeting positive
      obtain ⟨e, extentA, lowA, highA⟩ := frequencyExtent_exact wide memA
      obtain ⟨f, extentB, lowB, highB⟩ := frequencyExtent_exact wide' memB
      obtain ⟨first, second⟩ := lt_min_iff.mp meet
      obtain ⟨aa, ba⟩ := max_lt_iff.mp first
      obtain ⟨ab, bb⟩ := max_lt_iff.mp second
      have aa : (a.1 : ℚ) < a.2 := by exact_mod_cast aa
      have ba : (b.1 : ℚ) < a.2 := by exact_mod_cast ba
      have ab : (a.1 : ℚ) < b.2 := by exact_mod_cast ab
      have bb : (b.1 : ℚ) < b.2 := by exact_mod_cast bb
      refine ⟨e, f, extentA, extentB, lt_min (max_lt ?_ ?_) (max_lt ?_ ?_)⟩
      · linarith
      · linarith
      · linarith
      · linarith

/-- The numbers of a band's 20 MHz channels. -/
def Band.InPlan : Band → Int → Prop
  | .twoGhz, channel => 1 ≤ channel ∧ channel ≤ 14
  | .fiveGhz, channel =>
    (36 ≤ channel ∧ channel ≤ 64 ∧ channel % 4 = 0) ∨
      (100 ≤ channel ∧ channel ≤ 144 ∧ channel % 4 = 0) ∨
      (149 ≤ channel ∧ channel ≤ 177 ∧ channel % 4 = 1)
  | .sixGhz, channel => 1 ≤ channel ∧ channel ≤ 233 ∧ channel % 4 = 1

def Band.realWidths : Band → List Int
  | .twoGhz => [20, 40]
  | .fiveGhz => [20, 40, 80, 160]
  | .sixGhz => [20, 40, 80, 160, 320]

/-- A radio on a channel of its band's plan, with a width that the band has. -/
structure PlannedSpan extends ChannelSpan where
  planned : band.InPlan channel
  real : widthMhz ∈ band.realWidths

/-- A radio is placed where it is: each placement is as wide as the radio, and holds its primary
20 MHz channel. -/
structure WellPlaced (s : ChannelSpan) : Prop where
  placed : (candidateSpans I32.exact s).run.1 ≠ []
  exact_width : ∀ p ∈ (candidateSpans I32.exact s).run.1, p.2 - p.1 = 2 * s.widthMhz
  primary_inside : ∀ centre, s.band.primaryCentreMhz I32.exact s.channel = some centre →
    ∀ p ∈ (candidateSpans I32.exact s).run.1, p.1 ≤ 2 * (centre - 10) ∧ 2 * (centre + 10) ≤ p.2

/-- A 5 GHz channel of the upper plan that comes last in its block of the grid laid from 36 on. -/
def LastInBlock (s : ChannelSpan) : Prop :=
  s.band = .fiveGhz ∧ 149 ≤ s.channel ∧
    s.widthMhz / 5 - 4 < (s.channel - 36) % (s.widthMhz / 5)

theorem PlannedSpan.wide (s : PlannedSpan) : 20 ≤ s.widthMhz := by
  have real := s.real
  cases band : s.band <;>
  · rw [band] at real
    simp only [Band.realWidths, List.mem_cons, List.not_mem_nil, or_false] at real
    omega

theorem PlannedSpan.centred (s : PlannedSpan) :
    ∃ primary, s.band.centre s.channel = some primary := by
  have planned := s.planned
  cases band : s.band with
  | twoGhz =>
    rw [band] at planned
    unfold Band.centre
    dsimp only
    split
    next => exact ⟨_, rfl⟩
    next other =>
      obtain ⟨low, high⟩ := planned
      exact ⟨_, if_pos ⟨low, by omega⟩⟩
  | fiveGhz => exact ⟨_, rfl⟩
  | sixGhz => exact ⟨_, rfl⟩

/-- A block holds the primary channel about which it is laid, unless that is the last in it. -/
theorem block_holds_iff {anchor channel width primary : Int}
    (real : width ∈ [20, 40, 80, 160, 320]) :
    ((around (2 * (primary + 5 * (blockCentre anchor channel width - channel))) width).1 ≤
        2 * (primary - 10) ∧ 2 * (primary + 10) ≤
      (around (2 * (primary + 5 * (blockCentre anchor channel width - channel))) width).2) ↔
      (channel - anchor) % (width / 5) ≤ width / 5 - 4 := by
  unfold around blockCentre
  simp only [List.mem_cons, List.not_mem_nil, or_false] at real
  rcases real with rfl | rfl | rfl | rfl | rfl <;> omega

/-- A placed radio has its width; what is left is that it holds its primary channel. -/
theorem wellPlaced_iff_primary (s : PlannedSpan) {primary : Int}
    (centred : s.band.centre s.channel = some primary) :
    WellPlaced s.toChannelSpan ↔
      ∀ p ∈ s.placements.1, p.1 ≤ 2 * (primary - 10) ∧ 2 * (primary + 10) ≤ p.2 := by
  have wide := s.wide
  have positive : 0 < s.widthMhz := by omega
  have spans : (candidateSpans I32.exact s.toChannelSpan).run = s.placements :=
    candidateSpans_exact positive
  constructor
  · intro well p mem
    refine well.primary_inside primary ?_ p ?_
    · rw [primaryCentreMhz_exact, centred]
    · rw [spans]
      exact mem
  · intro all
    obtain ⟨first, mem⟩ := exists_placement centred
    constructor
    case placed =>
      rw [spans]
      exact List.ne_nil_of_mem mem
    case exact_width =>
      rw [spans]
      exact fun p mem => width_of_placement mem
    case primary_inside =>
      intro centre named p mem
      rw [primaryCentreMhz_exact, centred] at named
      rw [spans] at mem
      cases named
      exact all p mem

theorem around_holds {primary centre width : Int}
    (inside : 2 * primary - centre ≤ width - 20 ∧ centre - 2 * primary ≤ width - 20) :
    (around centre width).1 ≤ 2 * (primary - 10) ∧ 2 * (primary + 10) ≤ (around centre width).2 := by
  unfold around
  dsimp only
  omega

theorem wellPlaced_iff (s : PlannedSpan) : WellPlaced s.toChannelSpan ↔
    ¬ LastInBlock s.toChannelSpan := by
  have wide := s.wide
  obtain ⟨primary, centred⟩ := s.centred
  rw [wellPlaced_iff_primary s centred]
  have planned := s.planned
  have real := s.real
  unfold ChannelSpan.placements LastInBlock
  rw [centred]
  cases band : s.band with
  | twoGhz =>
    dsimp only [Band.blockAnchor]
    refine iff_of_true ?_ (fun last => nomatch last.1)
    split
    next narrow =>
      intro p mem
      rw [List.mem_singleton.mp mem]
      exact around_holds (by omega)
    next =>
      intro p mem
      rcases List.mem_cons.mp mem with rfl | mem
      · exact around_holds (by omega)
      · rw [List.mem_singleton.mp mem]
        exact around_holds (by omega)
  | fiveGhz =>
    rw [band] at planned real
    have above : 36 ≤ s.channel := by
      unfold Band.InPlan at planned
      omega
    have grid : ¬ (s.widthMhz < 5 ∨ s.channel < 36) := by omega
    dsimp only [Band.blockAnchor]
    rw [if_neg grid, List.forall_mem_singleton, block_holds_iff ?_]
    · unfold Band.InPlan at planned
      simp only [Band.realWidths, List.mem_cons, List.not_mem_nil, or_false] at real
      simp only [true_and]
      rcases real with width | width | width | width <;>
      · rw [width]
        omega
    · exact List.mem_append_left [320] real
  | sixGhz =>
    rw [band] at planned real
    have above : 1 ≤ s.channel := planned.1
    have grid : ¬ (s.widthMhz < 5 ∨ s.channel < 1) := by omega
    dsimp only [Band.blockAnchor]
    rw [if_neg grid, List.forall_mem_singleton, block_holds_iff real]
    refine iff_of_true ?_ (fun last => nomatch last.1)
    have step := planned.2.2
    simp only [Band.realWidths, List.mem_cons, List.not_mem_nil, or_false] at real
    rcases real with width | width | width | width | width <;>
    · rw [width]
      omega

/-- The geometry of every planned radio: the laws of the overlap hold of any two, and a radio is
placed where it is unless its channel comes last in a block of the upper 5 GHz plan. -/
theorem geometry_holds_iff (own other : PlannedSpan) (rssi : Option Int) :
    (WellPlaced own.toChannelSpan ∧
        OverlapLaws own.toChannelSpan other.toChannelSpan rssi) ↔
      ¬ LastInBlock own.toChannelSpan := by
  have wide := own.wide
  have wide' := other.wide
  obtain ⟨primary, centred⟩ := own.centred
  have laws : OverlapLaws own.toChannelSpan other.toChannelSpan rssi :=
    overlapLaws (by omega) (by omega) centred rssi
  rw [and_iff_left laws, wellPlaced_iff]

def channel149 : PlannedSpan where
  toChannelSpan := ⟨149, .fiveGhz, 20, false⟩
  planned := .inr (.inr ⟨by decide, by decide, rfl⟩)
  real := List.mem_cons_self

/-- Channel 149 at 20 MHz, 5735 to 5755 MHz, is placed at 5730 to 5750. -/
theorem channel_149_misplaced :
    (candidateSpans I32.exact channel149.toChannelSpan).run = ([(11460, 11500)], false) ∧
      Band.primaryCentreMhz I32.exact .fiveGhz 149 = some 5745 ∧
      ¬ WellPlaced channel149.toChannelSpan := by
  refine ⟨rfl, rfl, ?_⟩
  intro well
  have inside := well.primary_inside 5745 rfl (11460, 11500) List.mem_cons_self
  exact absurd inside.2 (by decide)

end NetObserver
