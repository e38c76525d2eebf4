import Mathlib.Algebra.Order.Field.Rat
import NetObserver.Samples
import NetObserver.StdText

/-! Where a radio sits on the frequency axis, and how far two of them overlap. -/

namespace NetObserver

inductive Band where
  | twoGhz
  | fiveGhz
  | sixGhz
deriving DecidableEq

/-- The 32-bit operations: a sum, a difference or a product is handed its exact result. -/
structure I32 (M : Type → Type) where
  fit : Int → M Int
  quot : Int → Int → M Int

namespace I32

def exact : I32 Id := ⟨fun x => x, fun a b => a.tdiv b⟩

/-- `none` where an operation overflows or divides by zero. -/
def checked : I32 Option where
  fit x := if -2147483648 ≤ x ∧ x ≤ 2147483647 then some x else none
  quot a b := if b = 0 ∨ 2147483647 < a.tdiv b then none else some (a.tdiv b)

end I32

structure ChannelSpan where
  channel : Int
  band : Band
  widthMhz : Int
  widthAssumed : Bool

/-- In MHz; the code's halves of an integer are exact as floating-point numbers too. -/
structure FrequencyExtent where
  loMhz : ℚ
  hiMhz : ℚ
  placementAmbiguous : Bool
  drawnAsUnion : Bool

inductive OverlapConfidence where
  | low
  | medium
  | high
deriving DecidableEq

structure ChannelOverlapHypothesis where
  overlap : ℚ
  rssiDbm : Option Int
  confidence : OverlapConfidence

inductive Signal where
  | good
  | fair
  | poor
deriving DecidableEq

namespace Band

def parse (s : String) : Option Band :=
  let label := StdText.trimLower s
  if label = "2ghz" ∨ label = "2.4ghz" then some .twoGhz
  else if label = "5ghz" then some .fiveGhz
  else if label = "6ghz" then some .sixGhz
  else none

def blockAnchor : Band → Option Int
  | .fiveGhz => some 36
  | .sixGhz => some 1
  | .twoGhz => none

end Band

def ChannelSpan.new (channel : Option Int) (band : Option String) (widthMhz : Option Int) :
    Option ChannelSpan := do
  let channel ← channel
  let band ← Band.parse (← band)
  let (width, assumed) := match widthMhz with
    | some w => if 0 < w then (w, false) else (20, true)
    | none => (20, true)
  some ⟨channel, band, width, assumed⟩

section

variable {M : Type → Type} [Monad M] (i32 : I32 M)

def Band.primaryCentreMhz (band : Band) (channel : Int) : M (Option Int) :=
  match band with
  | .twoGhz =>
    if channel = 14 then pure (some 2484)
    else if 1 ≤ channel ∧ channel ≤ 13 then do
      let centre ← i32.fit (2407 + (← i32.fit (5 * channel)))
      pure (some centre)
    else pure none
  | .fiveGhz => do
    let centre ← i32.fit (5000 + (← i32.fit (5 * channel)))
    pure (some centre)
  | .sixGhz => do
    let centre ← i32.fit (5950 + (← i32.fit (5 * channel)))
    pure (some centre)

/-- A width about a centre, in doubled MHz so that odd halves stay exact. -/
def centredSpan (doubledCentre half : Int) : M (Int × Int) := do
  let lo ← i32.fit (doubledCentre - half)
  let hi ← i32.fit (doubledCentre + half)
  pure (lo, hi)

def candidateSpans (span : ChannelSpan) : M (List (Int × Int) × Bool) := do
  match ← span.band.primaryCentreMhz i32 span.channel with
  | none => pure ([], true)
  | some primary =>
    let half := span.widthMhz
    if span.band = .twoGhz then
      if span.widthMhz ≤ 20 then
        let only ← centredSpan i32 (← i32.fit (2 * primary)) half
        pure ([only], false)
      else
        -- Bonded upward or downward: the secondary channel is not reported.
        let offset ← i32.fit (span.widthMhz - 20)
        let up ← i32.fit ((← i32.fit (2 * primary)) + offset)
        let down ← i32.fit ((← i32.fit (2 * primary)) - offset)
        let upper ← centredSpan i32 up half
        let lower ← centredSpan i32 down half
        pure ([upper, lower], true)
    else
      let step ← i32.quot span.widthMhz 5
      match span.band.blockAnchor with
      | none =>
        let only ← centredSpan i32 (← i32.fit (2 * primary)) half
        pure ([only], true)
      | some anchor =>
        if step ≤ 0 ∨ span.channel < anchor then
          let only ← centredSpan i32 (← i32.fit (2 * primary)) half
          pure ([only], true)
        else
          let blocks ← i32.quot (← i32.fit (span.channel - anchor)) step
          let blockStart ← i32.fit (anchor + (← i32.fit (blocks * step)))
          let centreChannel ← i32.fit ((← i32.fit (blockStart + (← i32.quot step 2))) - 2)
          match ← span.band.primaryCentreMhz i32 centreChannel with
          | none =>
            let only ← centredSpan i32 (← i32.fit (2 * primary)) half
            pure ([only], true)
          | some centre =>
            let only ← centredSpan i32 (← i32.fit (2 * centre)) half
            pure ([only], false)

def ChannelSpan.frequencyExtent (span : ChannelSpan) : M (Option FrequencyExtent) := do
  let (spans, guessed) ← candidateSpans i32 span
  pure do
    let lo ← (spans.map Prod.fst).min?
    let hi ← (spans.map Prod.snd).max?
    some ⟨lo / 2, hi / 2, guessed, decide (1 < spans.length)⟩

/-- The greatest fraction that two of the placements share. -/
def bestFraction (narrower : Int) (ownSpans otherSpans : List (Int × Int)) : M ℚ :=
  ownSpans.foldlM (fun best a =>
    otherSpans.foldlM (fun best b => do
      let shared := max (← i32.fit (min a.2 b.2 - max a.1 b.1)) 0
      let fraction := min ((shared : ℚ) / narrower) 1
      pure (if best < fraction then fraction else best)) best) 0

def overlapHypothesis (own other : ChannelSpan) (otherRssiDbm : Option Int) :
    M ChannelOverlapHypothesis := do
  let (ownSpans, ownGuessed) ← candidateSpans i32 own
  let (otherSpans, otherGuessed) ← candidateSpans i32 other
  let narrower ← i32.fit (min own.widthMhz other.widthMhz * 2)
  let overlap ← if own.band ≠ other.band ∨ narrower ≤ 0 then pure 0
    else bestFraction i32 narrower ownSpans otherSpans
  let placementGuessed := own.band == other.band && (ownGuessed || otherGuessed)
  pure
    { overlap := overlap
      rssiDbm := otherRssiDbm
      confidence :=
        if own.widthAssumed || other.widthAssumed || placementGuessed then .low
        else if otherRssiDbm.isNone then .medium
        else .high }

def AirObservation.signal (o : AirObservation) : M (Option Signal) :=
  match o.rssiDbm, o.noiseDbm with
  | some rssi, some noise => do
    let snr ← i32.fit (rssi - noise)
    pure (some (if 30 ≤ snr then .good else if 20 ≤ snr then .fair else .poor))
  | _, _ => pure none

end

end NetObserver
