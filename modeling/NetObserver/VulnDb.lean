import Mathlib.Order.Defs.LinearOrder
import Mathlib.Data.Rat.Defs
import NetObserver.InvertedIndex
import NetObserver.StdText
import NetObserver.VersionOrder

/-! The CVE snapshot: how a record becomes affected products with version ranges, the index by
product, and the query. -/

namespace NetObserver

structure RawVersion where
  version : Option String
  status : Option String
  lessThan : Option String
  lessThanOrEqual : Option String
  versionStartIncluding : Option String
  versionStartExcluding : Option String
  versionEndIncluding : Option String
  versionEndExcluding : Option String

structure RawAffected where
  vendor : Option String
  product : Option String
  defaultStatus : Option String
  versions : List RawVersion

structure RawDescription where
  lang : Option String
  value : Option String

/-- The base scores of a metric's three CVSS versions. -/
structure RawMetric where
  cvssV31 : Option ℚ
  cvssV30 : Option ℚ
  cvssV20 : Option ℚ

structure RawCna where
  title : Option String
  descriptions : List RawDescription
  affected : List RawAffected
  metrics : List RawMetric

structure RawCveRecord where
  cveId : Option String
  cna : Option RawCna

/-- One affected product; without ranges the whole product is affected. -/
structure AffectedProduct where
  vendor : Option String
  product : String
  ranges : List VersionRange

structure CveEntry where
  cveId : String
  summary : String
  cvss : Option ℚ
  affected : List AffectedProduct

/-- A start of `0` or `*` is no lower bound. -/
def meaningfulStart (v : String) : Bool :=
  !StdText.isBlank v && String.ofList (StdText.trim v.toList) != "0" &&
    String.ofList (StdText.trim v.toList) != "*"

namespace RawVersion

/-- Its own status, or else the entry's default. -/
def isAffected (raw : RawVersion) (defaultAffected : Bool) : Bool :=
  match raw.status with
  | some s => Mdns.eqIgnoreAsciiCase s "affected"
  | none => defaultAffected

def usable (bound : Option String) : Option String := bound.filter fun s => !StdText.isBlank s

def usableStart (bound : Option String) : Option String := bound.filter meaningfulStart

def range (raw : RawVersion) : VersionRange :=
  -- The later of two fields for one bound stands.
  let endExcluding := (usable raw.versionEndExcluding).or (usable raw.lessThan)
  let endIncluding := (usable raw.versionEndIncluding).or (usable raw.lessThanOrEqual)
  let startIncluding := usableStart raw.versionStartIncluding
  let startExcluding := usableStart raw.versionStartExcluding
  let bounds : VersionRange := ⟨startIncluding, startExcluding, endIncluding, endExcluding, none⟩
  let started := startIncluding.isSome || startExcluding.isSome
  match (usable raw.version).filter meaningfulStart with
  | some v =>
    if endExcluding.isSome || endIncluding.isSome || started then
      if started then bounds else { bounds with startIncluding := some v }
    else { bounds with exact_ := some v }
  | none => bounds

end RawVersion

def convertVersion (raw : RawVersion) (defaultAffected : Bool) : Option VersionRange :=
  if raw.isAffected defaultAffected then some raw.range else none

/-- A vendor or a product that names none. -/
def namesNone (name : String) : Bool := name == "" || name == "n/a" || name == "*"

def RawAffected.defaultAffected (raw : RawAffected) : Bool :=
  raw.defaultStatus.any fun s => Mdns.eqIgnoreAsciiCase s "affected"

def convertAffected (raw : RawAffected) : Option AffectedProduct :=
  ((raw.product.map StdText.trimLower).filter fun p => !namesNone p).map fun product =>
    { vendor := (raw.vendor.map StdText.trimLower).filter fun v => !namesNone v
      product := product
      ranges := raw.versions.filterMap fun v => convertVersion v raw.defaultAffected }

def firstEnglishDescription (descs : List RawDescription) : Option String :=
  let english := descs.find? fun d => d.lang.any fun l => l.toList.take 2 == ['e', 'n']
  ((english.or descs.head?).bind RawDescription.value).filter fun v => v != ""

def metricBaseScore (m : RawMetric) : Option ℚ := (m.cvssV31.or m.cvssV30).or m.cvssV20

/-- `parse_cve_record`, behind the JSON. -/
def parseCveRecord (record : RawCveRecord) : Option CveEntry :=
  (record.cveId.filter fun id => id != "").bind fun cveId =>
    record.cna.bind fun cna =>
      let affected := cna.affected.filterMap convertAffected
      if affected.isEmpty then none
      else some
        { cveId := cveId
          summary := ((cna.title.filter fun t => t != "").or
            (firstEnglishDescription cna.descriptions)).getD ""
          cvss := cna.metrics.findSome? metricBaseScore
          affected := affected }

inductive Confidence where
  | low
  | medium
  | high
deriving DecidableEq

namespace Confidence

def rank : Confidence → Nat
  | low => 0
  | medium => 1
  | high => 2

theorem rank_injective : Function.Injective rank := by
  intro a b same
  cases a <;> cases b <;> first | rfl | cases same

instance : LinearOrder Confidence := LinearOrder.lift' rank rank_injective

end Confidence

structure Cpe where
  vendor : Option String
  product : String
  version : Option String

structure VulnMatch where
  cveId : String
  summary : String
  confidence : Confidence
  knownExploited : Bool
  cvss : Option ℚ

/-- `None` when the entry does not match at all. -/
def confidenceFor (aff : AffectedProduct) (version : Option String) : Option Confidence :=
  match version with
  | none => some .low
  | some v =>
    if aff.ranges.isEmpty || aff.ranges.all VersionRange.isUnbounded then some .medium
    else if aff.ranges.any fun r => !r.isUnbounded && r.contains v == some true then some .high
    else if aff.ranges.any VersionRange.isUnbounded then some .medium
    else none

structure VulnDb where
  entries : List CveEntry
  byProduct : String → Option (List Nat)
  kev : String → Bool

/-- `build_product_index`. -/
def buildProductIndex (entries : List CveEntry) : String → Option (List Nat) :=
  InvertedIndex.build (fun e => e.affected.map AffectedProduct.product) entries

def VulnDb.ofEntries (entries : List CveEntry) (kev : String → Bool) : VulnDb :=
  ⟨entries, buildProductIndex entries, kev⟩

/-- What one affected entry says to the query. -/
def AffectedProduct.reach (aff : AffectedProduct) (cpe : Cpe) : Option Confidence :=
  if aff.product != StdText.trimLower cpe.product then none
  -- The vendor narrows only where both sides name one.
  else if (cpe.vendor.map StdText.trimLower).any fun q => aff.vendor.any fun a => q != a then none
  else confidenceFor aff cpe.version

/-- The best of what its affected entries say. -/
def CveEntry.best (entry : CveEntry) (cpe : Cpe) : Option Confidence :=
  entry.affected.foldl
    (fun best aff =>
      match aff.reach cpe with
      | some conf => some (best.elim conf fun b => max b conf)
      | none => best) none

namespace VulnMatch

/-- Known-exploited first, then the higher confidence, the higher score and the lesser id. -/
def cmp (a b : VulnMatch) : Ordering :=
  (compare b.knownExploited a.knownExploited).then <|
    (compare b.confidence.rank a.confidence.rank).then <|
      (compare (b.cvss.getD 0) (a.cvss.getD 0)).then (compare a.cveId b.cveId)

def before (a b : VulnMatch) : Bool := (a.cmp b).isLE

end VulnMatch

/-- A record's match, if any of its entries says anything. -/
def CveEntry.matched (entry : CveEntry) (kev : String → Bool) (cpe : Cpe) : Option VulnMatch :=
  (entry.best cpe).map fun confidence =>
    { cveId := entry.cveId
      summary := entry.summary
      confidence := confidence
      knownExploited := kev entry.cveId
      cvss := entry.cvss }

def VulnDb.matchProduct (db : VulnDb) (cpe : Cpe) : List VulnMatch :=
  match db.byProduct (StdText.trimLower cpe.product) with
  | none => []
  | some indices =>
    ((indices.filterMap fun i => db.entries[i]?).filterMap fun entry =>
      entry.matched db.kev cpe).mergeSort VulnMatch.before

theorem foldl_best (reached : List Confidence) (best : Option Confidence) :
    reached.foldl (fun best conf => some (best.elim conf fun b => max b conf)) best =
      (best.toList ++ reached).max? := by
  induction reached generalizing best with
  | nil => cases best <;> rfl
  | cons conf rest ih =>
    rw [List.foldl_cons, ih]
    cases best with
    | none => rfl
    | some b =>
      simp only [Option.elim_some, Option.toList_some, List.singleton_append, List.max?_cons',
        List.foldl_cons]

theorem CveEntry.best_eq_max? (entry : CveEntry) (cpe : Cpe) :
    entry.best cpe = (entry.affected.filterMap fun aff => aff.reach cpe).max? := by
  have folded := foldl_best (entry.affected.filterMap fun aff => aff.reach cpe) none
  rw [List.foldl_filterMap] at folded
  refine Eq.trans ?_ folded
  unfold best
  congr 1
  funext best aff
  cases aff.reach cpe <;> rfl

theorem CveEntry.best_eq_some_iff {entry : CveEntry} {cpe : Cpe} {conf : Confidence} :
    entry.best cpe = some conf ↔ (∃ aff ∈ entry.affected, aff.reach cpe = some conf) ∧
      ∀ aff ∈ entry.affected, ∀ c, aff.reach cpe = some c → c ≤ conf := by
  rw [best_eq_max?, List.max?_eq_some_iff, List.mem_filterMap]
  refine and_congr_right fun _ => ?_
  constructor
  · intro most aff mem c reached
    exact most c (List.mem_filterMap.mpr ⟨aff, mem, reached⟩)
  · intro most c mem
    obtain ⟨aff, mem, reached⟩ := List.mem_filterMap.mp mem
    exact most aff mem c reached

theorem CveEntry.best_eq_none_iff {entry : CveEntry} {cpe : Cpe} :
    entry.best cpe = none ↔ ∀ aff ∈ entry.affected, aff.reach cpe = none := by
  rw [best_eq_max?, List.max?_eq_none_iff, List.filterMap_eq_nil_iff]

theorem AffectedProduct.product_of_reach {aff : AffectedProduct} {cpe : Cpe} {conf : Confidence}
    (reached : aff.reach cpe = some conf) : aff.product = StdText.trimLower cpe.product := by
  unfold reach at reached
  split at reached
  next => cases reached
  next same => simpa using same

/-- The index leaves out no record that would match. -/
theorem VulnDb.matchProduct_eq (entries : List CveEntry) (kev : String → Bool) (cpe : Cpe) :
    (VulnDb.ofEntries entries kev).matchProduct cpe =
      (entries.filterMap fun e => e.matched kev cpe).mergeSort VulnMatch.before := by
  have found := InvertedIndex.lookup_build (fun e : CveEntry => e.affected.map AffectedProduct.product)
    entries (StdText.trimLower cpe.product)
  have unnamed : ∀ e ∈ entries, ¬ StdText.trimLower cpe.product ∈
      e.affected.map AffectedProduct.product → e.matched kev cpe = none := by
    intro e _ absent
    have silent : e.best cpe = none := by
      refine CveEntry.best_eq_none_iff.mpr fun aff mem => ?_
      rw [Option.eq_none_iff_forall_ne_some]
      intro conf reached
      exact absent (List.mem_map.mpr ⟨aff, mem, aff.product_of_reach reached⟩)
    rw [CveEntry.matched, silent]
    rfl
  have same : ((entries.filter fun e => StdText.trimLower cpe.product ∈
      e.affected.map AffectedProduct.product).filterMap fun e => e.matched kev cpe) =
        entries.filterMap fun e => e.matched kev cpe := by
    rw [List.filterMap_filter]
    refine List.filterMap_congr fun e mem => ?_
    by_cases named : StdText.trimLower cpe.product ∈ e.affected.map AffectedProduct.product
    · rw [if_pos (decide_eq_true named)]
    · rw [if_neg (by simpa using named), unnamed e mem named]
  unfold VulnDb.matchProduct VulnDb.ofEntries buildProductIndex
  dsimp only
  rw [← same, ← found]
  split
  next none_ =>
    rw [none_]
    exact List.mergeSort_nil.symm
  next indices some_ => rw [some_]; rfl

theorem VulnDb.mem_matchProduct {entries : List CveEntry} {kev : String → Bool} {cpe : Cpe}
    {m : VulnMatch} :
    m ∈ (VulnDb.ofEntries entries kev).matchProduct cpe ↔
      ∃ e ∈ entries, e.matched kev cpe = some m := by
  rw [matchProduct_eq, List.mem_mergeSort, List.mem_filterMap]

end NetObserver
