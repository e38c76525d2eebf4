import NetObserver.IncidentViews

/-! Every incident is told the same way by its row, by the ring and by the frames on the bus. -/

namespace NetObserver

open Timeline

def Incident.summary (i : Incident) : IncidentSummary :=
  ⟨i.id, i.openedUs, i.closedUs, i.triggerId, i.signature⟩

/-- The incident as its opening frame told it. -/
def Incident.opening (i : Incident) : IncidentSummary := { i.summary with closedUs := none }

def Incident.firing (i : Incident) : TriggerFired := ⟨i.openedUs, i.triggerId, i.id, i.signature⟩

def Event.opened? : Event → Option IncidentSummary
  | .incident s => some s
  | _ => none

/-- What a frame says of the close of that incident. -/
def Event.closeOf (id : String) : Event → Option (String × Option Int × Int)
  | .incidentClosed closed triggerId openedUs closedUs =>
    if closed = id then some (triggerId, openedUs, closedUs) else none
  | _ => none

/-- A close tells of an opening before it. -/
def ClosesEarlier (earlier : List Event) (e : Event) : Prop :=
  ∀ id triggerId openedUs closedUs, e = .incidentClosed id triggerId openedUs closedUs →
    ∃ s, Event.incident s ∈ earlier ∧ s.id = id ∧ s.triggerId = triggerId ∧
      openedUs = some s.openedUs ∧ s.openedUs ≤ closedUs

def IncidentViews.start (incidents : List Incident) (fired : List TriggerFired) : IncidentViews :=
  ⟨incidents, fired, 0, [], []⟩

/-- The three places agree on the incidents `rows`, opened in that order since `past`. -/
structure ToldAlike (cap : Nat) (past : IncidentViews) (rows : List Incident) (v : IncidentViews) :
    Prop where
  durable : v.incidents = past.incidents ++ rows
  fired : v.fired = past.fired ++ rows.map Incident.firing
  ids : (rows.map Incident.id).Nodup
  apart : ∀ r ∈ rows, ∀ e ∈ past.incidents, e.id ≠ r.id
  minted : ∀ r ∈ rows, incidentIdParts r.id = some (r.triggerId, r.openedUs)
  ordered : ∀ r ∈ rows, ∀ c, r.closedUs = some c → r.openedUs ≤ c
  ring : v.ring = (rows.reverse.take cap).map Incident.summary
  opened : v.bus.filterMap Event.opened? = rows.map Incident.opening
  closed : ∀ r ∈ rows, v.bus.filterMap (Event.closeOf r.id) =
    r.closedUs.toList.map fun closedUs => (r.triggerId, some r.openedUs, closedUs)
  later : EachAfter ClosesEarlier v.bus

namespace IncidentViews

theorem closeRows_of_apart {id : String} {rows : List Incident} (apart : ∀ e ∈ rows, e.id ≠ id)
    (closedUs : Int) : closeRows id closedUs rows = rows := by
  have same : ∀ e ∈ rows, (if e.id = id then { e with closedUs := some closedUs } else e) = e :=
    fun e mem => if_neg (apart e mem)
  rw [closeRows, List.map_congr_left same, List.map_id']

/-- With every id once in the ring, stamping the entry found first stamps the row's own. -/
theorem stampRing_summaries {id : String} {closedUs : Int} {rows : List Incident}
    (ids : (rows.map Incident.id).Nodup) :
    stampRing id closedUs (rows.map Incident.summary) =
      (closeRows id closedUs rows).map Incident.summary := by
  induction rows with
  | nil => rfl
  | cons r rows ih =>
    obtain ⟨fresh, rest⟩ := List.nodup_cons.mp ids
    by_cases same : r.id = id
    · have apart : ∀ e ∈ rows, e.id ≠ id := by
        intro e mem eq
        exact fresh (List.mem_map.mpr ⟨e, mem, eq.trans same.symm⟩)
      have kept := closeRows_of_apart apart closedUs
      rw [closeRows] at kept ⊢
      rw [List.map_cons, List.map_cons, List.map_cons, kept, stampRing,
        if_pos (show r.summary.id = id from same), if_pos same]
      rfl
    · have tail := ih rest
      rw [closeRows] at tail ⊢
      rw [List.map_cons, List.map_cons, List.map_cons, stampRing,
        if_neg (show r.summary.id ≠ id from same), if_neg same, tail]

theorem closeRows_map {γ : Type*} {f : Incident → γ}
    (blind : ∀ (r : Incident) (c : Option Int), f { r with closedUs := c } = f r) (id : String)
    (closedUs : Int) (rows : List Incident) : (closeRows id closedUs rows).map f = rows.map f := by
  rw [closeRows, List.map_map]
  refine List.map_congr_left fun r _ => ?_
  change f (if r.id = id then { r with closedUs := some closedUs } else r) = f r
  split
  · exact blind r _
  · rfl

theorem closeRows_newest (id : String) (closedUs : Int) (rows : List Incident) (n : Nat) :
    closeRows id closedUs (rows.reverse.take n) = (closeRows id closedUs rows).reverse.take n := by
  rw [closeRows, closeRows, List.map_take, List.map_reverse]

end IncidentViews

open IncidentViews

theorem take_cons_take {α : Type*} (n : Nat) (x : α) (xs : List α) :
    (x :: xs.take n).take n = (x :: xs).take n := by
  cases n with
  | zero => rfl
  | succ n =>
    rw [List.take_succ_cons, List.take_succ_cons, List.take_take, Nat.min_eq_left (Nat.le_succ n)]

/-- No frame closes an incident that has no row. -/
theorem ToldAlike.unclosed {cap : Nat} {past v : IncidentViews} {rows : List Incident}
    (told : ToldAlike cap past rows v) {id : String} (unknown : ∀ r ∈ rows, r.id ≠ id) :
    v.bus.filterMap (Event.closeOf id) = [] := by
  refine List.filterMap_eq_nil_iff.mpr fun e mem => ?_
  cases e with
  | incidentClosed closed triggerId openedUs closedUs =>
    obtain ⟨i, found⟩ := List.mem_iff_getElem?.mp mem
    obtain ⟨s, earlier, same, _⟩ := told.later i _ found closed triggerId openedUs closedUs rfl
    have opened : s ∈ v.bus.filterMap Event.opened? :=
      List.mem_filterMap.mpr ⟨.incident s, List.mem_of_mem_take earlier, rfl⟩
    rw [told.opened] at opened
    obtain ⟨r, row, rfl⟩ := List.mem_map.mp opened
    have other : closed ≠ id := by
      rintro rfl
      exact unknown r row same
    simp [Event.closeOf, other]
  | _ => rfl

/-- A firing whose row was accepted is told in all three places. -/
theorem ToldAlike.fire {cap : Nat} {past v : IncidentViews} {rows : List Incident}
    (told : ToldAlike cap past rows v) {id triggerId : String} {tsUs : Int}
    (fresh : ∀ row ∈ v.incidents, row.id ≠ id)
    (parts : incidentIdParts id = some (triggerId, tsUs)) (detail : String) :
    ToldAlike cap past (rows ++ [⟨id, tsUs, none, triggerId, detail⟩])
      (v.told cap (.onFire id tsUs detail)) := by
  have rule : ruleOf id = triggerId := by simp [ruleOf, parts]
  have unknown : (v.incidents.any fun row => row.id == id) = false := by
    simpa using fresh
  have after : v.told cap (.onFire id tsUs detail) =
      { v with
        incidents := v.incidents ++ [⟨id, tsUs, none, triggerId, detail⟩]
        fired := v.fired ++ [⟨tsUs, triggerId, id, detail⟩]
        ring := (⟨id, tsUs, none, triggerId, detail⟩ :: v.ring).take cap
        bus := v.bus ++ [.incident ⟨id, tsUs, none, triggerId, detail⟩] } := by
    simp [IncidentViews.told, handle, recordOnFire, openIncident, writeTriggerFired,
      snapshotOnFire, unknown, rule]
  have freshRow : ∀ r ∈ rows, r.id ≠ id := by
    intro r mem
    exact fresh r (by rw [told.durable]; exact List.mem_append_right _ mem)
  have cases_ {r : Incident} (mem : r ∈ rows ++ [⟨id, tsUs, none, triggerId, detail⟩]) :
      r ∈ rows ∨ r = ⟨id, tsUs, none, triggerId, detail⟩ := by
    simpa using mem
  rw [after]
  refine ⟨?_, ?_, ?_, ?_, ?_, ?_, ?_, ?_, ?_, ?_⟩
  · rw [told.durable, List.append_assoc]
  · rw [told.fired, List.map_append, List.append_assoc]
    rfl
  · rw [List.map_append]
    refine List.nodup_append.mpr ⟨told.ids, List.nodup_singleton _, ?_⟩
    intro x old y new same
    obtain ⟨r, mem, rfl⟩ := List.mem_map.mp old
    have key : y = id := by simpa using new
    exact freshRow r mem (same.trans key)
  · intro r mem e earlier
    rcases cases_ mem with old | rfl
    · exact told.apart r old e earlier
    · exact fresh e (by rw [told.durable]; exact List.mem_append_left _ earlier)
  · intro r mem
    rcases cases_ mem with old | rfl
    · exact told.minted r old
    · exact parts
  · intro r mem c closed
    rcases cases_ mem with old | rfl
    · exact told.ordered r old c closed
    · cases closed
  · rw [told.ring, List.reverse_append]
    change (_ :: ((rows.reverse.take cap).map Incident.summary)).take cap =
      (List.take cap (_ :: rows.reverse)).map Incident.summary
    rw [List.map_take, List.map_take, take_cons_take]
    rfl
  · rw [List.filterMap_append, told.opened, List.map_append]
    rfl
  · intro r mem
    have frame : [Event.incident ⟨id, tsUs, none, triggerId, detail⟩].filterMap
        (Event.closeOf r.id) = [] := rfl
    rw [List.filterMap_append, frame, List.append_nil]
    rcases cases_ mem with old | rfl
    · exact told.closed r old
    · exact told.unclosed freshRow
  · refine told.later.snoc ?_
    intro id' triggerId' openedUs closedUs eq
    cases eq

/-- Closing a row that is open is told in all three places, whether or not the ring still has it. -/
theorem ToldAlike.clear {cap : Nat} {past v : IncidentViews} {rows : List Incident}
    (told : ToldAlike cap past rows v) {r : Incident} (row : r ∈ rows) (pending : r.closedUs = none)
    {closedUs : Int} (order : r.openedUs ≤ closedUs) :
    ToldAlike cap past (closeRows r.id closedUs rows) (v.told cap (.onClear r.id closedUs)) := by
  have parts := told.minted r row
  have after : v.told cap (.onClear r.id closedUs) =
      { v with
        incidents := closeRows r.id closedUs v.incidents
        ring := stampRing r.id closedUs v.ring
        bus := v.bus ++ [.incidentClosed r.id r.triggerId (some r.openedUs) closedUs] } := by
    simp [IncidentViews.told, handle, recordOnClear, closeIncident, snapshotOnClear, ruleOf, parts]
  have sole : ∀ e ∈ rows, e.id = r.id → e = r := by
    intro e mem same
    exact List.inj_on_of_nodup_map told.ids mem row same
  have closedRow {e : Incident} (mem : e ∈ closeRows r.id closedUs rows) :
      (e ∈ rows ∧ e.id ≠ r.id) ∨ e = { r with closedUs := some closedUs } := by
    obtain ⟨old, mem', rfl⟩ := List.mem_map.mp mem
    by_cases same : old.id = r.id
    · refine .inr ?_
      rw [if_pos same, sole old mem' same]
    · refine .inl ?_
      rw [if_neg same]
      exact ⟨mem', same⟩
  rw [after]
  refine ⟨?_, ?_, ?_, ?_, ?_, ?_, ?_, ?_, ?_, ?_⟩
  · have earlier := closeRows_of_apart (told.apart r row) closedUs
    rw [closeRows] at earlier ⊢
    rw [told.durable, List.map_append, earlier]
    rfl
  · rw [closeRows_map (fun _ _ => rfl)]
    exact told.fired
  · rw [closeRows_map (fun _ _ => rfl)]
    exact told.ids
  · intro e mem
    rcases closedRow mem with ⟨old, _⟩ | rfl
    · exact told.apart e old
    · exact told.apart r row
  · intro e mem
    rcases closedRow mem with ⟨old, _⟩ | rfl
    · exact told.minted e old
    · exact parts
  · intro e mem c closed
    rcases closedRow mem with ⟨old, _⟩ | rfl
    · exact told.ordered e old c closed
    · cases closed
      exact order
  · have part : ((rows.reverse.take cap).map Incident.id).Nodup := by
      have reversed : (rows.reverse.map Incident.id).Nodup := by
        rw [List.map_reverse]
        exact List.nodup_reverse.mpr told.ids
      rw [List.map_take]
      exact reversed.sublist (List.take_sublist _ _)
    rw [← closeRows_newest, ← stampRing_summaries part, ← told.ring]
  · rw [closeRows_map (fun _ _ => rfl), List.filterMap_append, told.opened]
    exact List.append_nil _
  · intro e mem
    rw [List.filterMap_append]
    rcases closedRow mem with ⟨old, other⟩ | rfl
    · have frame : [Event.incidentClosed r.id r.triggerId (some r.openedUs) closedUs].filterMap
          (Event.closeOf e.id) = [] := by
        simp [Event.closeOf, Ne.symm other]
      rw [frame, List.append_nil]
      exact told.closed e old
    · have before : v.bus.filterMap (Event.closeOf r.id) = [] := by
        rw [told.closed r row, pending]
        rfl
      rw [before]
      simp [Event.closeOf]
  · refine told.later.snoc ?_
    intro id triggerId openedUs closed eq
    cases eq
    have known : r.opening ∈ v.bus.filterMap Event.opened? := by
      rw [told.opened]
      exact List.mem_map.mpr ⟨r, row, rfl⟩
    obtain ⟨e, mem, shown⟩ := List.mem_filterMap.mp known
    cases e with
    | incident s =>
      cases shown
      exact ⟨r.opening, mem, rfl, rfl, rfl, order⟩
    | _ => cases shown

def openIds {η : Type*} (ts : List (Trigger η)) : List String :=
  ts.filterMap fun t => t.openIncident.map Prod.fst

/-- What the triggers hold open is what the rows show open. -/
structure PendingAlike {η : Type*} (ts : List (Trigger η)) (rows : List Incident) : Prop where
  latch : ∀ t ∈ ts, t.LatchMatches
  distinct : (openIds ts).Nodup
  pending : ∀ t ∈ ts, ∀ id openedUs, t.openIncident = some (id, openedUs) →
    ∃ r ∈ rows, r.id = id ∧ r.openedUs = openedUs ∧ r.closedUs = none
  owned : ∀ r ∈ rows, r.closedUs = none → r.id ∈ openIds ts

section

variable {η : Type*} {done rest : List (Trigger η)} {t t' : Trigger η} {rows : List Incident}

theorem openIds_split (done rest : List (Trigger η)) (t : Trigger η) :
    openIds (done ++ t :: rest) =
      openIds done ++ ((t.openIncident.map Prod.fst).toList ++ openIds rest) := by
  rw [openIds, List.filterMap_append, List.filterMap_cons]
  cases t.openIncident.map Prod.fst <;> rfl

/-- What holds of every trigger still does where one is replaced that it holds of. -/
theorem forall_replaced {P : Trigger η → Prop} (each : ∀ u ∈ done ++ t :: rest, P u)
    (own : P t') : ∀ u ∈ done ++ t' :: rest, P u := by
  intro u mem
  simp only [List.mem_append, List.mem_cons] at mem
  rcases mem with before | rfl | after
  · exact each u (by simp [before])
  · exact own
  · exact each u (by simp [after])

theorem PendingAlike.quiet (alike : PendingAlike (done ++ t :: rest) rows)
    (latch : t'.LatchMatches) (same : t'.openIncident = t.openIncident) :
    PendingAlike (done ++ t' :: rest) rows := by
  have ids : openIds (done ++ t' :: rest) = openIds (done ++ t :: rest) := by
    rw [openIds_split, openIds_split, same]
  refine ⟨?_, ?_, ?_, ?_⟩
  · exact forall_replaced alike.latch latch
  · rw [ids]
    exact alike.distinct
  · refine forall_replaced alike.pending ?_
    intro id openedUs opened
    exact alike.pending t (by simp) id openedUs (same ▸ opened)
  · rw [ids]
    exact alike.owned

theorem PendingAlike.fire (alike : PendingAlike (done ++ t :: rest) rows)
    (idle : t.openIncident = none) {r : Incident} (fresh : ∀ e ∈ rows, e.id ≠ r.id)
    (pending : r.closedUs = none) (latch : t'.LatchMatches)
    (opened : t'.openIncident = some (r.id, r.openedUs)) :
    PendingAlike (done ++ t' :: rest) (rows ++ [r]) := by
  have ids : openIds (done ++ t :: rest) = openIds done ++ openIds rest := by
    rw [openIds_split, idle]
    rfl
  have ids' : openIds (done ++ t' :: rest) = openIds done ++ r.id :: openIds rest := by
    rw [openIds_split, opened]
    rfl
  have unheld : r.id ∉ openIds (done ++ t :: rest) := by
    intro mem
    obtain ⟨u, held, shown⟩ := List.mem_filterMap.mp mem
    obtain ⟨incident, own, same⟩ := Option.map_eq_some_iff.mp shown
    obtain ⟨e, row, key, _⟩ := alike.pending u held incident.1 incident.2 own
    exact fresh e row (key.trans same)
  refine ⟨?_, ?_, ?_, ?_⟩
  · exact forall_replaced alike.latch latch
  · have distinct := alike.distinct
    rw [ids] at distinct unheld
    rw [ids']
    exact List.nodup_middle.mpr (List.nodup_cons.mpr ⟨unheld, distinct⟩)
  · refine forall_replaced (t := t) ?_ ?_
    · intro u held id openedUs own
      obtain ⟨e, row, shown⟩ := alike.pending u held id openedUs own
      exact ⟨e, List.mem_append_left _ row, shown⟩
    · intro id openedUs own
      rw [opened] at own
      cases own
      exact ⟨r, by simp, rfl, rfl, pending⟩
  · intro e mem shown
    rw [ids']
    rcases List.mem_append.mp mem with old | new
    · have held := alike.owned e old shown
      rw [ids] at held
      simp only [List.mem_append, List.mem_cons] at held ⊢
      rcases held with before | after
      · exact .inl before
      · exact .inr (.inr after)
    · rw [List.mem_singleton.mp new]
      simp

theorem PendingAlike.clear (alike : PendingAlike (done ++ t :: rest) rows) {r : Incident}
    (own : t.openIncident = some (r.id, r.openedUs)) (closedUs : Int) (latch : t'.LatchMatches)
    (idle : t'.openIncident = none) :
    PendingAlike (done ++ t' :: rest) (closeRows r.id closedUs rows) := by
  have ids : openIds (done ++ t :: rest) = openIds done ++ r.id :: openIds rest := by
    rw [openIds_split, own]
    rfl
  have ids' : openIds (done ++ t' :: rest) = openIds done ++ openIds rest := by
    rw [openIds_split, idle]
    rfl
  have distinct := alike.distinct
  rw [ids] at distinct
  obtain ⟨released, kept⟩ := List.nodup_cons.mp (List.nodup_middle.mp distinct)
  refine ⟨?_, ?_, ?_, ?_⟩
  · exact forall_replaced alike.latch latch
  · rw [ids']
    exact kept
  · intro u mem id openedUs held
    have other (there : u ∈ done ∨ u ∈ rest) :
        ∃ e ∈ closeRows r.id closedUs rows, e.id = id ∧ e.openedUs = openedUs ∧
          e.closedUs = none := by
      have inside : u ∈ done ++ t :: rest := by
        simp only [List.mem_append, List.mem_cons]
        rcases there with before | after
        · exact .inl before
        · exact .inr (.inr after)
      obtain ⟨e, row, key, shown⟩ := alike.pending u inside id openedUs held
      have apart : e.id ≠ r.id := by
        intro same
        refine released (List.mem_append.mpr ?_)
        have listed {us : List (Trigger η)} (mem : u ∈ us) : r.id ∈ openIds us := by
          refine List.mem_filterMap.mpr ⟨u, mem, ?_⟩
          rw [held, ← same, key]
          rfl
        rcases there with before | after
        · exact .inl (listed before)
        · exact .inr (listed after)
      refine ⟨e, List.mem_map.mpr ⟨e, row, if_neg apart⟩, key, shown⟩
    simp only [List.mem_append, List.mem_cons] at mem
    rcases mem with before | rfl | after
    · exact other (.inl before)
    · rw [idle] at held
      cases held
    · exact other (.inr after)
  · intro e mem shown
    obtain ⟨old, row, rfl⟩ := List.mem_map.mp mem
    by_cases same : old.id = r.id
    · rw [if_pos same] at shown
      cases shown
    · rw [if_neg same] at shown ⊢
      have held := alike.owned old row shown
      rw [ids] at held
      rw [ids']
      simp only [List.mem_append, List.mem_cons] at held ⊢
      rcases held with before | mine | after
      · exact .inl before
      · exact absurd mine same
      · exact .inr after

end

namespace ToldEngine

def start (rules : List (Condition × List IncidentHandler × Int)) (incidents : List Incident)
    (fired : List TriggerFired) : ToldEngine :=
  ⟨.fresh rules, .start incidents fired⟩

end ToldEngine

end NetObserver
