import NetObserver.VulnDb
import Mathlib.Data.List.Perm.Basic

/-! The query through the index against a scan of every affected entry of every record. -/

namespace NetObserver

/-- What the query promises: the CVEs that a scan without the index finds, each once, with the
highest confidence any entry of its records reaches, most serious first, whatever the order in which
the records were read. -/
structure MatchesExact (entries : List CveEntry) (kev : String → Bool) (cpe : Cpe)
    (out : List VulnMatch) : Prop where
  ids : ∀ id, id ∈ out.map VulnMatch.cveId ↔
    ∃ e ∈ entries, e.cveId = id ∧ ∃ aff ∈ e.affected, (aff.reach cpe).isSome
  once : (out.map VulnMatch.cveId).Nodup
  highest : ∀ m ∈ out,
    (∃ e ∈ entries, e.cveId = m.cveId ∧ ∃ aff ∈ e.affected, aff.reach cpe = some m.confidence) ∧
      ∀ e ∈ entries, e.cveId = m.cveId → ∀ aff ∈ e.affected, ∀ c, aff.reach cpe = some c →
        c ≤ m.confidence
  sorted : out.Pairwise fun a b => (a.cmp b).isLE
  anyOrder : ∀ entries' : List CveEntry, entries'.Perm entries →
    (VulnDb.ofEntries entries' kev).matchProduct cpe = out

namespace VulnMatch

instance : Std.TransCmp cmp :=
  inferInstanceAs (Std.TransCmp (compareLex (fun a b => compareOn VulnMatch.knownExploited b a)
    (compareLex (fun a b => compareOn (fun m : VulnMatch => m.confidence.rank) b a)
      (compareLex (fun a b => compareOn (fun m : VulnMatch => m.cvss.getD 0) b a)
        (compareOn VulnMatch.cveId)))))

theorem cveId_of_cmp_eq {a b : VulnMatch} (same : a.cmp b = .eq) : a.cveId = b.cveId := by
  unfold cmp at same
  rw [Ordering.then_eq_eq, Ordering.then_eq_eq, Ordering.then_eq_eq] at same
  exact Std.LawfulEqOrd.eq_of_compare same.2.2.2

theorem pairwise_mergeSort (matches_ : List VulnMatch) :
    (matches_.mergeSort before).Pairwise fun a b => (a.cmp b).isLE := by
  refine List.pairwise_mergeSort (fun a b c => ?_) (fun a b => ?_) matches_
  · exact Std.TransCmp.isLE_trans
  · rw [@Std.OrientedCmp.eq_swap _ cmp _ b a]
    cases a.cmp b <;> rfl

/-- Matches of different CVEs stand in one order only. -/
theorem mergeSort_unique {matches_ matches' : List VulnMatch} (perm : matches_.Perm matches')
    (apart : (matches_.map cveId).Nodup) : matches_.mergeSort before = matches'.mergeSort before := by
  have here := List.mergeSort_perm matches_ before
  have there := List.mergeSort_perm matches' before
  refine List.Perm.eq_of_pairwise (fun a b memA memB ab ba => ?_) (pairwise_mergeSort matches_)
    (pairwise_mergeSort matches') ((here.trans perm).trans there.symm)
  have same := cveId_of_cmp_eq (Std.OrientedCmp.isLE_antisymm ab ba)
  exact List.inj_on_of_nodup_map apart (here.mem_iff.mp memA)
    (perm.mem_iff.mpr (there.mem_iff.mp memB)) same

end VulnMatch

/-- Some affected entry of the record says something to the query. -/
def CveEntry.reached (entry : CveEntry) (cpe : Cpe) : Bool :=
  entry.affected.any fun aff => (aff.reach cpe).isSome

theorem CveEntry.reached_iff {entry : CveEntry} {cpe : Cpe} :
    entry.reached cpe = true ↔ ∃ aff ∈ entry.affected, (aff.reach cpe).isSome := by
  rw [reached, List.any_eq_true]

theorem CveEntry.isSome_best (entry : CveEntry) (cpe : Cpe) :
    (entry.best cpe).isSome = entry.reached cpe := by
  cases best : entry.best cpe with
  | none =>
    have silent := best_eq_none_iff.mp best
    refine (Bool.eq_false_iff.mpr fun reached => ?_).symm
    obtain ⟨aff, mem, some_⟩ := reached_iff.mp reached
    rw [silent aff mem] at some_
    cases some_
  | some conf =>
    obtain ⟨aff, mem, reached⟩ := (best_eq_some_iff.mp best).1
    exact (reached_iff.mpr ⟨aff, mem, by rw [reached]; rfl⟩).symm

/-- The matches are the reached records', one each. -/
theorem map_cveId_matched (entries : List CveEntry) (kev : String → Bool) (cpe : Cpe) :
    (entries.filterMap fun e => e.matched kev cpe).map VulnMatch.cveId =
      (entries.filter fun e => e.reached cpe).map CveEntry.cveId := by
  induction entries with
  | nil => rfl
  | cons e rest ih =>
    have some_ := e.isSome_best cpe
    cases best : e.best cpe with
    | none =>
      rw [best] at some_
      rw [List.filterMap_cons_none (by rw [CveEntry.matched, best]; rfl), ih,
        List.filter_cons_of_neg (by rw [← some_]; decide)]
    | some conf =>
      rw [best] at some_
      rw [List.filterMap_cons_some (by rw [CveEntry.matched, best]; rfl), List.map_cons, ih,
        List.filter_cons_of_pos (by rw [← some_]; rfl), List.map_cons]

theorem CveEntry.of_matched {entry : CveEntry} {kev : String → Bool} {cpe : Cpe} {m : VulnMatch}
    (matched : entry.matched kev cpe = some m) :
    entry.cveId = m.cveId ∧ entry.best cpe = some m.confidence := by
  obtain ⟨conf, best, rfl⟩ := Option.map_eq_some_iff.mp matched
  exact ⟨rfl, best⟩

/-- The index and the sort keep every promise exactly when no two records that match are of one
CVE. -/
theorem matchProduct_exact_iff (entries : List CveEntry) (kev : String → Bool) (cpe : Cpe) :
    MatchesExact entries kev cpe ((VulnDb.ofEntries entries kev).matchProduct cpe) ↔
      ((entries.filter fun e => e.reached cpe).map CveEntry.cveId).Nodup := by
  have perm : ((VulnDb.ofEntries entries kev).matchProduct cpe).Perm
      (entries.filterMap fun e => e.matched kev cpe) := by
    rw [VulnDb.matchProduct_eq]
    exact List.mergeSort_perm _ _
  have idsPerm := perm.map VulnMatch.cveId
  rw [map_cveId_matched] at idsPerm
  constructor
  · intro exact_
    exact idsPerm.nodup_iff.mp exact_.once
  · intro apart
    refine ⟨?_, idsPerm.nodup_iff.mpr apart, ?_, ?_, ?_⟩
    · intro id
      rw [idsPerm.mem_iff, List.mem_map]
      constructor
      · rintro ⟨e, mem, rfl⟩
        obtain ⟨mem, reached⟩ := List.mem_filter.mp mem
        exact ⟨e, mem, rfl, CveEntry.reached_iff.mp reached⟩
      · rintro ⟨e, mem, rfl, reached⟩
        exact ⟨e, List.mem_filter.mpr ⟨mem, CveEntry.reached_iff.mpr reached⟩, rfl⟩
    · intro m mem
      obtain ⟨e, listed, matched⟩ := VulnDb.mem_matchProduct.mp mem
      obtain ⟨same, best⟩ := CveEntry.of_matched matched
      obtain ⟨⟨aff, affMem, reached⟩, most⟩ := CveEntry.best_eq_some_iff.mp best
      refine ⟨⟨e, listed, same, aff, affMem, reached⟩, ?_⟩
      intro e' listed' same' aff' affMem' c reached'
      have matches_ : e.reached cpe = true :=
        CveEntry.reached_iff.mpr ⟨aff, affMem, by rw [reached]; rfl⟩
      have matches' : e'.reached cpe = true :=
        CveEntry.reached_iff.mpr ⟨aff', affMem', by rw [reached']; rfl⟩
      have one := List.inj_on_of_nodup_map apart (List.mem_filter.mpr ⟨listed', matches'⟩)
        (List.mem_filter.mpr ⟨listed, matches_⟩) (same'.trans same.symm)
      subst one
      exact most aff' affMem' c reached'
    · rw [VulnDb.matchProduct_eq]
      exact VulnMatch.pairwise_mergeSort _
    · intro entries' shuffled
      rw [VulnDb.matchProduct_eq, VulnDb.matchProduct_eq]
      refine VulnMatch.mergeSort_unique (shuffled.filterMap _) ?_
      rw [map_cveId_matched]
      exact ((shuffled.filter _).map _).nodup_iff.mpr apart

/-- One CVE in two files of the snapshot. -/
def openSshTwice : List CveEntry :=
  [⟨"CVE-2016-6210", "user enumeration", none, [⟨none, "openssh", []⟩]⟩,
    ⟨"CVE-2016-6210", "user enumeration", none, [⟨none, "openssh", []⟩]⟩]

theorem match_of_one_cve_twice :
    ((VulnDb.ofEntries openSshTwice fun _ => false).matchProduct ⟨none, "openssh", none⟩).map
        VulnMatch.cveId = ["CVE-2016-6210", "CVE-2016-6210"] ∧
      ¬ MatchesExact openSshTwice (fun _ => false) ⟨none, "openssh", none⟩
        ((VulnDb.ofEntries openSshTwice fun _ => false).matchProduct ⟨none, "openssh", none⟩) := by
  have twice : (openSshTwice.filterMap fun e =>
      e.matched (fun _ => false) ⟨none, "openssh", none⟩).map VulnMatch.cveId =
        ["CVE-2016-6210", "CVE-2016-6210"] := by decide
  have found : ((VulnDb.ofEntries openSshTwice fun _ => false).matchProduct
      ⟨none, "openssh", none⟩).map VulnMatch.cveId = ["CVE-2016-6210", "CVE-2016-6210"] := by
    have perm := (List.mergeSort_perm (openSshTwice.filterMap fun e =>
      e.matched (fun _ => false) ⟨none, "openssh", none⟩) VulnMatch.before).map VulnMatch.cveId
    rw [← VulnDb.matchProduct_eq, twice] at perm
    exact (@List.perm_replicate _ 2 "CVE-2016-6210" _).mp perm
  refine ⟨found, fun exact_ => ?_⟩
  have once := exact_.once
  rw [found] at once
  revert once
  decide

end NetObserver
