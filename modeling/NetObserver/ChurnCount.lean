import Mathlib.Data.Finset.Card
import NetObserver.WifiConditions

/-! The identity changes the churn condition counts: one for each tick on which a field differs
from its reading before. -/

namespace NetObserver

open Machine

/-- The elements of a newest-first list a predicate holds of, given those older than each. -/
def withOlder {α : Type*} (p : α → List α → Bool) : List α → List α
  | [] => []
  | a :: older => if p a older then a :: withOlder p older else withOlder p older

theorem withOlder_cons {α : Type*} (p : α → List α → Bool) (a : α) (older : List α) :
    withOlder p (a :: older) = if p a older then a :: withOlder p older else withOlder p older := rfl

theorem withOlder_sublist {α : Type*} (p : α → List α → Bool) (l : List α) :
    (withOlder p l).Sublist l := by
  induction l with
  | nil => exact List.Sublist.refl []
  | cons a older ih =>
    rw [withOlder_cons]
    split
    next => exact ih.cons_cons a
    next => exact ih.cons a

theorem mem_withOlder {α : Type*} {p : α → List α → Bool} {l : List α} {a : α} :
    a ∈ withOlder p l ↔ ∃ older, (a :: older) <:+ l ∧ p a older = true := by
  induction l with
  | nil => simp [withOlder]
  | cons b rest ih =>
    have step : a ∈ withOlder p (b :: rest) ↔ (a = b ∧ p b rest = true) ∨ a ∈ withOlder p rest := by
      rw [withOlder_cons]
      split
      next holds => simp [holds]
      next fails => simp [fails]
    rw [step, ih]
    constructor
    · rintro (⟨rfl, holds⟩ | ⟨older, suffix, holds⟩)
      · exact ⟨rest, List.suffix_refl _, holds⟩
      · exact ⟨older, suffix.trans (List.suffix_cons b rest), holds⟩
    · rintro ⟨older, suffix, holds⟩
      rcases List.suffix_cons_iff.mp suffix with whole | deeper
      · obtain ⟨rfl, rfl⟩ := List.cons.inj whole
        exact .inl ⟨rfl, holds⟩
      · exact .inr ⟨older, deeper, holds⟩

section Changes

variable {V : Type*} [DecidableEq V]

/-- The link's measured reading of a field differs from the most recent older one. -/
def fieldChanged (field : LinkSample → Option V) (l : LinkSample) (older : List LinkSample) : Bool :=
  match field l, older.findSome? field with
  | some value, some before => decide (value ≠ before)
  | _, _ => false

def changedWithin (horizon : Int) (field : LinkSample → Option V) (l : LinkSample)
    (older : List LinkSample) : Bool :=
  fieldChanged field l older && decide (horizon ≤ l.tsUs)

/-- The timestamps at which a field changed since the horizon, newest first. -/
def fieldChanges (horizon : Int) (field : LinkSample → Option V) (links : List LinkSample) :
    List Int :=
  (withOlder (changedWithin horizon field) links).map (·.tsUs)

theorem fieldChanges_of_unmeasured {horizon : Int} {field : LinkSample → Option V} {l : LinkSample}
    (unmeasured : field l = none) (links : List LinkSample) :
    fieldChanges horizon field (l :: links) = fieldChanges horizon field links := by
  have transparent : changedWithin horizon field l links = false := by
    simp [changedWithin, fieldChanged, unmeasured]
  unfold fieldChanges
  rw [withOlder_cons, transparent]
  rfl

theorem fieldChanges_of_measured {horizon : Int} {field : LinkSample → Option V} {l : LinkSample}
    {read : V} (measured : field l = some read) (links : List LinkSample) :
    fieldChanges horizon field (l :: links) =
      (if (∃ before, links.findSome? field = some before ∧ read ≠ before) ∧ horizon ≤ l.tsUs
        then [l.tsUs] else []) ++ fieldChanges horizon field links := by
  have counted : changedWithin horizon field l links = true ↔
      (∃ before, links.findSome? field = some before ∧ read ≠ before) ∧ horizon ≤ l.tsUs := by
    unfold changedWithin fieldChanged
    rw [measured]
    cases links.findSome? field <;> simp
  unfold fieldChanges
  simp only [withOlder_cons, ← counted]
  split
  next => rfl
  next => rfl

/-- The walk owes a change for the last measured value: the next measured one decides. -/
theorem identityChanges_some (horizon : Int) (field : LinkSample → Option V) (value : V)
    (ts : Int) (links : List LinkSample) :
    identityChanges horizon field (some (value, ts)) links =
      (if (∃ before, links.findSome? field = some before ∧ value ≠ before) ∧ horizon ≤ ts
        then [ts] else []) ++ fieldChanges horizon field links := by
  induction links generalizing value ts with
  | nil => simp [identityChanges, fieldChanges, withOlder]
  | cons l links ih =>
    cases reading : field l with
    | none =>
      rw [identityChanges, reading]
      dsimp only
      rw [ih, List.findSome?_cons, reading, fieldChanges_of_unmeasured reading]
    | some read =>
      rw [identityChanges, reading]
      dsimp only
      rw [ih, List.findSome?_cons, reading, fieldChanges_of_measured reading]
      have differs : (value ≠ read ∧ horizon ≤ ts) ↔
          (∃ before, some read = some before ∧ value ≠ before) ∧ horizon ≤ ts := by simp
      simp only [differs]

/-- The walk finds a change at each tick whose reading differs from the one before it. -/
theorem identityChanges_none (horizon : Int) (field : LinkSample → Option V)
    (links : List LinkSample) :
    identityChanges horizon field none links = fieldChanges horizon field links := by
  induction links with
  | nil => rfl
  | cons l links ih =>
    cases reading : field l with
    | none =>
      rw [identityChanges, reading]
      dsimp only
      rw [ih, fieldChanges_of_unmeasured reading]
    | some read =>
      rw [identityChanges, reading]
      dsimp only
      rw [List.nil_append, identityChanges_some, fieldChanges_of_measured reading]

omit [DecidableEq V] in
theorem findSome?_filter {field : LinkSample → Option V} {keep : LinkSample → Bool}
    {links : List LinkSample} (transparent : ∀ l ∈ links, keep l = false → field l = none) :
    (links.filter keep).findSome? field = links.findSome? field := by
  induction links with
  | nil => rfl
  | cons l links ih =>
    obtain ⟨here, rest⟩ := List.forall_mem_cons.mp transparent
    cases kept : keep l with
    | false =>
      rw [List.filter_cons_of_neg (by simp [kept]), ih rest, List.findSome?_cons, here kept]
    | true => rw [List.filter_cons_of_pos kept, List.findSome?_cons, List.findSome?_cons, ih rest]

/-- Links that measure nothing of the field change nothing wherever they stand. -/
theorem fieldChanges_filter {horizon : Int} {field : LinkSample → Option V}
    {keep : LinkSample → Bool} (links : List LinkSample)
    (transparent : ∀ l ∈ links, keep l = false → field l = none) :
    fieldChanges horizon field (links.filter keep) = fieldChanges horizon field links := by
  induction links with
  | nil => rfl
  | cons l links ih =>
    obtain ⟨here, rest⟩ := List.forall_mem_cons.mp transparent
    have behind := findSome?_filter rest
    cases kept : keep l with
    | false =>
      rw [List.filter_cons_of_neg (by simp [kept]), ih rest, fieldChanges_of_unmeasured (here kept)]
    | true =>
      rw [List.filter_cons_of_pos kept]
      cases reading : field l with
      | none => rw [fieldChanges_of_unmeasured reading, fieldChanges_of_unmeasured reading, ih rest]
      | some read =>
        rw [fieldChanges_of_measured reading, fieldChanges_of_measured reading, ih rest, behind]

end Changes

/-- The timestamps of the ticks with a change, oldest first and each once. -/
def churnTicks (w : RecentWindow) (horizon : Int) : List Int :=
  ((identityChanges horizon (·.bssid) none (w.recentLink wifiChurnScan) ++
    identityChanges horizon wifiIfMac none (w.recentLink wifiChurnScan) ++
    identityChanges horizon (anonymousPlacement w) none (w.recentLink wifiChurnScan)).insertionSort
      (· ≤ ·)).destutter (· ≠ ·)

/-- Some identity field of the link differs from the most recent older reading of that field. -/
def identityMoved (w : RecentWindow) (l : LinkSample) (older : List LinkSample) : Bool :=
  fieldChanged (·.bssid) l older || fieldChanged wifiIfMac l older ||
    fieldChanged (anonymousPlacement w) l older

/-- The links within the churn window of the newest one on which an identity field moved. -/
def movedTicks (w : RecentWindow) : List LinkSample :=
  match w.lastLink with
  | none => []
  | some newest =>
    withOlder (fun l older => identityMoved w l older &&
      decide (newest.tsUs - l.tsUs ≤ wifiChurnWindowS * 1000000)) w.links

theorem mem_fieldChanges {V : Type*} [DecidableEq V] {horizon : Int}
    {field : LinkSample → Option V} {links : List LinkSample} {ts : Int} :
    ts ∈ fieldChanges horizon field links ↔
      ∃ l older, (l :: older) <:+ links ∧ fieldChanged field l older = true ∧ horizon ≤ l.tsUs ∧
        l.tsUs = ts := by
  unfold fieldChanges
  rw [List.mem_map]
  constructor
  · rintro ⟨l, listed, rfl⟩
    obtain ⟨older, suffix, holds⟩ := mem_withOlder.mp listed
    unfold changedWithin at holds
    rw [Bool.and_eq_true, decide_eq_true_eq] at holds
    exact ⟨l, older, suffix, holds.1, holds.2, rfl⟩
  · rintro ⟨l, older, suffix, changed, within, rfl⟩
    refine ⟨l, mem_withOlder.mpr ⟨older, suffix, ?_⟩, rfl⟩
    simp [changedWithin, changed, within]

/-- Sorted and each once, a list counts its different elements. -/
theorem length_destutter_sorted {changes : List Int} {ticks : List Int} (distinct : ticks.Nodup)
    (members : ∀ ts, ts ∈ changes ↔ ts ∈ ticks) :
    ((changes.insertionSort (· ≤ ·)).destutter (· ≠ ·)).length = ticks.length := by
  have sorted := List.pairwise_insertionSort (· ≤ ·) changes
  rw [sorted.destutter_eq_dedup, ← List.card_toFinset, ← List.toFinset_card_of_nodup distinct]
  congr 1
  ext ts
  rw [List.mem_toFinset, List.mem_toFinset, List.mem_insertionSort, members]

theorem mem_movedTicks {w : RecentWindow} {newest : LinkSample}
    (newestIs : w.lastLink = some newest) {ts : Int} :
    ts ∈ (movedTicks w).map (·.tsUs) ↔ ∃ l older, (l :: older) <:+ w.links ∧
      identityMoved w l older = true ∧
      newest.tsUs - l.tsUs ≤ wifiChurnWindowS * 1000000 ∧ l.tsUs = ts := by
  unfold movedTicks
  rw [newestIs, List.mem_map]
  constructor
  · rintro ⟨l, listed, rfl⟩
    obtain ⟨older, suffix, holds⟩ := mem_withOlder.mp listed
    rw [Bool.and_eq_true, decide_eq_true_eq] at holds
    exact ⟨l, older, suffix, holds.1, holds.2, rfl⟩
  · rintro ⟨l, older, suffix, moved, within, rfl⟩
    refine ⟨l, mem_withOlder.mpr ⟨older, suffix, ?_⟩, rfl⟩
    rw [Bool.and_eq_true, decide_eq_true_eq]
    exact ⟨moved, within⟩

/-- The ticks are counted by their timestamps, so several fields moving on one tick are one. -/
theorem length_churnTicks {w : RecentWindow} {newest : LinkSample}
    (newestIs : w.lastLink = some newest) (short : w.links.length ≤ wifiChurnScan)
    (distinct : (w.links.map (·.tsUs)).Nodup)
    (clock : ∀ l ∈ w.links, i64Min ≤ l.tsUs ∧ l.tsUs ≤ i64Max) :
    (churnTicks w (satSub newest.tsUs (wifiChurnWindowS * 1000000))).length =
      (movedTicks w).length := by
  have scan : w.recentLink wifiChurnScan = w.links := List.take_of_length_le short
  have listed : newest ∈ w.links := by
    rw [RecentWindow.lastLink_eq_head] at newestIs
    exact List.mem_of_mem_head? newestIs
  have within : ∀ l ∈ w.links, satSub newest.tsUs (wifiChurnWindowS * 1000000) ≤ l.tsUs ↔
      newest.tsUs - l.tsUs ≤ wifiChurnWindowS * 1000000 := by
    intro l inLinks
    have low := clock l inLinks
    have high := clock newest listed
    unfold satSub clampI64 wifiChurnWindowS
    unfold i64Min i64Max at *
    omega
  have moved : ((movedTicks w).map (·.tsUs)).Nodup := by
    unfold movedTicks
    rw [newestIs]
    exact distinct.sublist ((withOlder_sublist _ _).map _)
  have stamps : ((movedTicks w).map (·.tsUs)).length = (movedTicks w).length := List.length_map _
  rw [← stamps]
  refine length_destutter_sorted moved ?_
  intro ts
  simp only [identityChanges_none, scan, List.mem_append, mem_fieldChanges,
    mem_movedTicks newestIs]
  constructor
  · rintro ((⟨l, older, suffix, changed, late, rfl⟩ | ⟨l, older, suffix, changed, late, rfl⟩) |
      ⟨l, older, suffix, changed, late, rfl⟩)
    all_goals
      have recent := (within l (suffix.subset List.mem_cons_self)).mp late
      exact ⟨l, older, suffix, by simp [identityMoved, changed], recent, rfl⟩
  · rintro ⟨l, older, suffix, moved, recent, rfl⟩
    have late := (within l (suffix.subset List.mem_cons_self)).mpr recent
    unfold identityMoved at moved
    rw [Bool.or_eq_true, Bool.or_eq_true] at moved
    rcases moved with (bssid | mac) | channel
    · exact .inl (.inl ⟨l, older, suffix, bssid, late, rfl⟩)
    · exact .inl (.inr ⟨l, older, suffix, mac, late, rfl⟩)
    · exact .inr ⟨l, older, suffix, channel, late, rfl⟩

/-- The condition fires with the count of its ticks once it reaches the least that reads as churn. -/
theorem wifiChurn_eval_some {w : RecentWindow} {newest : LinkSample}
    (newestIs : w.lastLink = some newest) {n : Nat}
    (count : (churnTicks w (satSub newest.tsUs (wifiChurnWindowS * 1000000))).length = n) :
    (n < wifiChurnMinChanges → wifiChurn.eval w = none) ∧
    (wifiChurnMinChanges ≤ n → ∃ rest, wifiChurn.eval w =
      some ⟨"wifi identity churn: " ++ toString n ++ " changes in ~" ++ rest⟩) := by
  simp only [wifiChurn, newestIs, Option.bind_eq_bind, Option.bind_some]
  unfold churnTicks at count
  generalize (_ : List Int).destutter (· ≠ ·) = ticks at count ⊢
  subst count
  constructor
  · intro few
    rw [if_pos few]
  · intro enough
    rw [if_neg (Nat.not_lt.mpr enough)]
    cases ticks with
    | nil => exact absurd enough (by decide)
    | cons first rest =>
      have lastIs : (first :: rest).getLast? = some ((first :: rest).getLast (by simp)) :=
        List.getLast?_eq_some_getLast _
      rw [lastIs, Option.bind_some, List.head?_cons, Option.bind_some]
      simp only [String.append_assoc]
      exact ⟨_, rfl⟩

/-- The link measures one of the three identity fields. -/
def measuresIdentity (w : RecentWindow) (l : LinkSample) : Bool :=
  l.bssid.isSome || (wifiIfMac l).isSome || (anonymousPlacement w l).isSome

theorem wifiChurn_eval_congr {w w' : RecentWindow} (newest : w.lastLink = w'.lastLink)
    (readings : ∀ ts, w.wifiAtOrBefore ts = w'.wifiAtOrBefore ts)
    (short : w.links.length ≤ wifiChurnScan) (short' : w'.links.length ≤ wifiChurnScan)
    (same : w.links.filter (measuresIdentity w) = w'.links.filter (measuresIdentity w)) :
    wifiChurn.eval w = wifiChurn.eval w' := by
  have scan : w.recentLink wifiChurnScan = w.links := List.take_of_length_le short
  have scan' : w'.recentLink wifiChurnScan = w'.links := List.take_of_length_le short'
  have placement : anonymousPlacement w' = anonymousPlacement w := by
    funext l
    simp only [anonymousPlacement, readings]
  have walks : ∀ {V : Type} [DecidableEq V] (horizon : Int) (field : LinkSample → Option V),
      (∀ l, measuresIdentity w l = false → field l = none) →
      identityChanges horizon field none w.links = identityChanges horizon field none w'.links := by
    intro V _ horizon field transparent
    rw [identityChanges_none, identityChanges_none,
      ← fieldChanges_filter w.links fun l _ => transparent l,
      ← fieldChanges_filter w'.links fun l _ => transparent l, same]
  have unmeasured : ∀ l, measuresIdentity w l = false →
      l.bssid = none ∧ wifiIfMac l = none ∧ anonymousPlacement w l = none := by
    intro l
    simp [measuresIdentity, and_assoc]
  simp only [wifiChurn, newest, scan, scan', placement]
  have bssid (horizon : Int) := walks horizon (·.bssid) fun l none => (unmeasured l none).1
  have mac (horizon : Int) := walks horizon wifiIfMac fun l none => (unmeasured l none).2.1
  have channel (horizon : Int) := walks horizon (anonymousPlacement w) fun l none =>
    (unmeasured l none).2.2
  simp only [bssid, mac, channel]

/-- The count is that of the ticks on which an identity field moved, and a link behind the newest
that measures none of the fields adds and hides nothing. -/
theorem wifiChurn_counts_ticks {w : RecentWindow} (short : w.links.length ≤ wifiChurnScan)
    (distinct : (w.links.map (·.tsUs)).Nodup)
    (clock : ∀ l ∈ w.links, i64Min ≤ l.tsUs ∧ l.tsUs ≤ i64Max) :
    ((movedTicks w).length < wifiChurnMinChanges → wifiChurn.eval w = none) ∧
    (wifiChurnMinChanges ≤ (movedTicks w).length → ∃ rest, wifiChurn.eval w =
      some ⟨"wifi identity churn: " ++ toString (movedTicks w).length ++ " changes in ~" ++ rest⟩) ∧
    ∀ w' : RecentWindow, w.lastLink = w'.lastLink →
      (∀ ts, w.wifiAtOrBefore ts = w'.wifiAtOrBefore ts) → w'.links.length ≤ wifiChurnScan →
      w.links.filter (measuresIdentity w) = w'.links.filter (measuresIdentity w) →
      wifiChurn.eval w = wifiChurn.eval w' := by
  have congr : ∀ w' : RecentWindow, w.lastLink = w'.lastLink →
      (∀ ts, w.wifiAtOrBefore ts = w'.wifiAtOrBefore ts) → w'.links.length ≤ wifiChurnScan →
      w.links.filter (measuresIdentity w) = w'.links.filter (measuresIdentity w) →
      wifiChurn.eval w = wifiChurn.eval w' :=
    fun w' newest readings short' same => wifiChurn_eval_congr newest readings short short' same
  cases newestIs : w.lastLink with
  | none =>
    have silent : wifiChurn.eval w = none := by simp [wifiChurn, newestIs]
    have moved : movedTicks w = [] := by simp [movedTicks, newestIs]
    rw [moved, ← newestIs]
    exact ⟨fun _ => silent, fun enough => absurd enough (by decide), congr⟩
  | some newest =>
    obtain ⟨few, enough⟩ := wifiChurn_eval_some newestIs
      (length_churnTicks newestIs short distinct clock)
    rw [← newestIs]
    exact ⟨few, enough, congr⟩

/-- The window after these links: seconds, medium and access point of each. -/
def bssidWindow (links : List (Int × LinkMedium × String)) : RecentWindow :=
  runWindow (RecentWindow.new windowCap) (links.map fun l =>
    .push (.link { LinkSample.gatewayOnly (l.1 * 1000000) .ok with
      medium := some l.2.1, bssid := some l.2.2 }))

theorem wifiChurn_counts_ticks_four :
    ∃ rest, wifiChurn.eval (bssidWindow [(0, .wifi, "a"), (60, .wifi, "b"), (120, .wifi, "a"),
        (180, .wifi, "b"), (240, .wifi, "a")]) =
      some ⟨"wifi identity churn: " ++ toString 4 ++ " changes in ~" ++ rest⟩ :=
  (wifiChurn_counts_ticks (by decide) (by decide) (by decide)).2.1 (by decide)

/-- A wired link that carries an access point is a reading of it like any other. -/
theorem wifiChurn_counts_wired :
    wifiChurn.eval (bssidWindow [(0, .wifi, "a"), (60, .wifi, "b"), (120, .wifi, "a"),
        (180, .wifi, "b")]) = none ∧
      (wifiChurn.eval (bssidWindow [(0, .wifi, "a"), (60, .wifi, "b"), (90, .wired, "c"),
        (120, .wifi, "a"), (180, .wifi, "b")])).isSome := by
  exact ⟨by decide, by decide⟩

end NetObserver
