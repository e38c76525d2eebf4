import NetObserver.LocalInstants
import NetObserver.SampleInstants

/-! Whether the printed time of an incident leads back to the link sample that opened it. -/

namespace NetObserver

open Machine StdText Calendar SingboxLog

/-- A moment typed as a text is answered with one link sample. -/
def LeadsTo (clock : LocalClock) (loadThreshold : F64) (r : RecordTables) (text : String)
    (l : LinkSample) : Prop :=
  ∃ t, clock.parseAt text = .ok t ∧
    ∃ s, r.verdictAt loadThreshold t = [⟨some s, s.layer, none⟩] ∧ s.link = l

/-- The cell under `OPENED` in the line of the incident at place `k` leads back to the sample. -/
def PrintLeadsBack (clock : LocalClock) (loadThreshold : F64) (r : RecordTables)
    (incidents : List IncidentSummary) (withIds : Bool) (k : Nat) (l : LinkSample) : Prop :=
  ∃ table row cell, clock.formatIncidents incidents withIds = some table ∧
    table.rows[k]? = some row ∧ table.cell "OPENED" row = some cell ∧
    LeadsTo clock loadThreshold r cell l

/-- An instant that its printed second tells whole: it has no part of a second, the time library
holds it, and its local year is not negative. -/
structure LocalClock.PrintedWhole (clock : LocalClock) (tsUs : Int) : Prop where
  second : tsUs % 1000000 = 0
  held : IsInstant (tsUs * 1000)
  year : 0 ≤ (clock.civil (tsUs * 1000)).date.year

/-- The cell printed for an incident is that of the instant it opened at. -/
theorem printLeadsBack_iff {clock : LocalClock} {loadThreshold : F64} {r : RecordTables}
    {incidents : List IncidentSummary} {withIds : Bool} {k : Nat} {l : LinkSample}
    {i : IncidentSummary} (listed : incidents[k]? = some i) :
    PrintLeadsBack clock loadThreshold r incidents withIds k l ↔
      LeadsTo clock loadThreshold r (String.ofList (clock.openedLocal i.openedUs)) l := by
  have some_ : incidents.isEmpty = false := by
    cases incidents with
    | nil => cases listed
    | cons _ _ => rfl
  have table : clock.formatIncidents incidents withIds =
      some ⟨LocalClock.incidentColumns withIds, incidents.map (clock.incidentCells withIds)⟩ := by
    unfold LocalClock.formatIncidents
    rw [some_]
    rfl
  have row : (incidents.map (clock.incidentCells withIds))[k]? =
      some (clock.incidentCells withIds i) := by
    rw [List.getElem?_map, listed, Option.map_some]
  have cell : QueryTable.cell
      ⟨LocalClock.incidentColumns withIds, incidents.map (clock.incidentCells withIds)⟩ "OPENED"
      (clock.incidentCells withIds i) = some (String.ofList (clock.openedLocal i.openedUs)) := by
    cases withIds <;> rfl
  unfold PrintLeadsBack
  rw [table]
  constructor
  · intro ⟨_, own, text, same, placed, under, leads⟩
    cases same
    rw [row] at placed
    cases placed
    rw [cell] at under
    cases under
    exact leads
  · intro leads
    exact ⟨_, _, _, rfl, row, cell, leads⟩

section

variable {clock : LocalClock} {loadThreshold : F64} {r : RecordTables} {l : LinkSample}

/-- At the instant of a sample that no other shares, in no silence, its state is the verdict. -/
theorem verdictAt_link (mem : l ∈ r.linkSample)
    (alone : ∀ m ∈ r.linkSample, m.tsUs = l.tsUs → m = l) (read : ¬ r.SilenceOpens l.tsUs) :
    ∃ s, r.verdictAt loadThreshold l.tsUs = [⟨some s, s.layer, none⟩] ∧ s.link = l := by
  have outside : ¬ r.InGap l.tsUs := by
    rw [RecordTables.inGap_sample_iff (RecordTables.link_isSample mem)]
    exact read
  obtain ⟨s, _, same, found⟩ := RecordTables.stateAt_link loadThreshold mem
  have held := (RecordTables.stateAt_some found).1
  refine ⟨s, ?_, alone s.link held same⟩
  rw [RecordTables.verdictAt_outside outside, found]
  rfl

/-- A verdict that shows a sample is not in front of it, and in no gap. -/
theorem of_verdictAt {t : Int} {s : LayerState}
    (shown : r.verdictAt loadThreshold t = [⟨some s, s.layer, none⟩]) :
    s.link.tsUs ≤ t ∧ ¬ r.InGap t := by
  have outside : ¬ r.InGap t := by
    intro inside
    have refusal : ∃ g ∈ r.gaps, g.span.Contains t ∧
        r.verdictAt loadThreshold t = [⟨none, .gap, some g.span⟩] :=
      RecordTables.verdictAt_inGap inside
    obtain ⟨g, _, _, refused⟩ := refusal
    rw [refused] at shown
    cases shown
  refine ⟨?_, outside⟩
  rw [RecordTables.verdictAt_outside outside] at shown
  have own : (⟨some s, s.layer, none⟩ : VerdictRow) ∈
      (r.stateAt loadThreshold t).toList.map fun s => ⟨some s, s.layer, none⟩ := by
    rw [shown]
    exact List.mem_singleton_self _
  obtain ⟨s', found, same⟩ := List.mem_map.mp own
  cases same
  exact (RecordTables.stateAt_some (Option.mem_toList.mp found)).2.1

end

/-- The printed time of an incident leads back to the sample that it opened at exactly where that
instant is printed whole, and no silence begins at it. -/
theorem printed_time_leads_back_iff (clock : LocalClock) (loadThreshold : F64) (r : RecordTables)
    (spaced : r.linkSample.Pairwise fun a b => 1000000 ≤ |a.tsUs - b.tsUs|)
    (l : LinkSample) (mem : l ∈ r.linkSample) (incidents : List IncidentSummary) (withIds : Bool)
    (k : Nat) (i : IncidentSummary) (listed : incidents[k]? = some i)
    (opened : i.openedUs = l.tsUs) :
    PrintLeadsBack clock loadThreshold r incidents withIds k l ↔
      clock.PrintedWhole l.tsUs ∧ ¬ r.SilenceOpens l.tsUs := by
  rw [printLeadsBack_iff listed, opened]
  constructor
  · intro ⟨t, parsed, s, shown, own⟩
    obtain ⟨before, outside⟩ := of_verdictAt shown
    obtain ⟨held, year, _, rfl⟩ := clock.parseAt_opened_iff.mp parsed
    rw [own] at before
    have whole : l.tsUs % 1000000 = 0 := by omega
    rw [whole, Int.sub_zero, RecordTables.inGap_sample_iff (RecordTables.link_isSample mem)] at outside
    exact ⟨⟨whole, held, year⟩, outside⟩
  · intro ⟨whole, quiet⟩
    have alone : ∀ m ∈ r.linkSample, m.tsUs = l.tsUs → m = l := by
      intro m held same
      by_contra other
      have symmetric : Std.Symm fun a b : LinkSample => 1000000 ≤ |a.tsUs - b.tsUs| := by
        refine ⟨fun a b far => ?_⟩
        rw [abs_sub_comm]
        exact far
      have apart := spaced.forall held mem other
      rw [same, Int.sub_self, abs_zero] at apart
      omega
    have same : l.tsUs - l.tsUs % 1000000 = l.tsUs := by rw [whole.second, Int.sub_zero]
    refine ⟨l.tsUs, ?_, verdictAt_link mem alone quiet⟩
    rw [clock.parseAt_opened_iff, same]
    exact ⟨whole.held, whole.year, whole.held, rfl⟩

/-- A civil time in the form of a cell's text behind the `T`. -/
def readDateTime (text : List Char) : Option DateTime :=
  match splitOnce 'T' text with
  | (date, some time) => do
    let c ← parseDate date
    let t ← SingboxLog.parseTime time
    if valid : IsDate c.year c.month c.day ∧ t.ss ≤ 59 then
      some ⟨⟨c.year, c.month, c.day, valid.1⟩,
        ⟨t.hh, t.mm, t.ss, 0, t.within.1, t.within.2.1, valid.2, Nat.zero_le _⟩⟩
    else none
  | (_, none) => none

theorem readDateTime_iso (d : Date) (t : TimeOfDay) (year : 0 ≤ d.year ∧ d.year ≤ 9999) :
    readDateTime (isoDate d ++ 'T' :: isoTime t) = some (DateTime.toSecond ⟨d, t⟩) := by
  obtain ⟨hours, minutes, seconds, _⟩ := t.within
  let c : CivilDay := ⟨d.year, d.month, d.day, d.months, d.days⟩
  let ct : ClockTime := ⟨t.hour, t.minute, t.second, ⟨hours, minutes, by omega⟩⟩
  have date : isoDate d = dateText d.year.toNat d.month d.day := by
    unfold isoDate dateText
    rw [if_pos year.1]
    simp [List.intercalate]
  have time : isoTime t = ct.text := by
    unfold isoTime ClockTime.text
    simp [List.intercalate, ct]
  have day : parseDate (isoDate d) = some c := by
    rw [date]
    exact parseDate_text (c := c) year.1 (Int.le_trans year.2 (by decide))
  have clock : SingboxLog.parseTime (isoTime t) = some ct := by
    rw [time]
    exact ct.parseTime_text
  unfold readDateTime
  rw [splitOnce_append (notMem_of_dateChar (by decide))]
  simp only [day, clock, bind, Option.bind_some]
  rw [dif_pos ⟨d.isDate, seconds⟩]
  rfl

theorem yearFirst_iso {d : Date} (year : 0 ≤ d.year ∧ d.year ≤ 9999) (rest : List Char) :
    yearFirst (isoDate d ++ rest) = true := by
  have four : (padded 4 d.year.toNat).length = 4 := length_padded (by omega) (by omega)
  have front : (isoDate d ++ rest).take 4 = padded 4 d.year.toNat := by
    unfold isoDate
    rw [if_pos year.1, List.append_assoc, List.take_append_of_le_length (by omega),
      List.take_of_length_le (by omega)]
  have digits : (padded 4 d.year.toNat).all Char.isDigit = true :=
    List.all_eq_true.mpr fun c mem => isDigit_padded mem
  cases text : isoDate d ++ rest with
  | nil =>
    rw [text] at front
    rw [← front] at four
    cases four
  | cons c behind =>
    rw [text] at front
    have first_ : c.isDigit = true := by
      have mem : c ∈ padded 4 d.year.toNat := by
        rw [← front]
        exact List.mem_cons_self
      exact isDigit_padded mem
    have unsigned : (c = '-' || c = '+') = false := by
      rw [Bool.or_eq_false_iff, decide_eq_false_iff_not, decide_eq_false_iff_not]
      constructor
      · rintro rfl
        cases first_
      · rintro rfl
        cases first_
    unfold yearFirst
    dsimp only
    rw [unsigned, if_neg Bool.false_ne_true, front, four, digits]
    rfl

/-- The zone is UTC, and the texts read are those of a cell and, with a `Z` behind them, of a
timestamp. -/
def utcClock : LocalClock where
  offsetSecs := 0
  within := by decide
  nowNs := 0
  parseTimestamp := fun text =>
    if text.getLast? = some 'Z' then (readDateTime text.dropLast).map DateTime.nanos else none
  parseDateTime := fun text => if yearFirst text then readDateTime text else none
  parseTime := fun text => (readDateTime ("1970-01-01T".toList ++ text)).map DateTime.time
  timestamp_offset := by
    intro text some_
    split at some_
    next ends =>
      have mem : 'Z' ∈ text.takeWhile isDateChar ++ text.dropWhile isDateChar := by
        rw [List.takeWhile_append_dropWhile]
        exact List.mem_of_getLast? ends
      rcases List.mem_append.mp mem with date | behind
      · cases List.mem_takeWhile_imp date
      · exact List.any_eq_true.mpr ⟨'Z', behind, rfl⟩
    next => cases some_
  dateTime_year := by
    intro text some_
    split at some_
    next year => exact year
    next => cases some_
  dateTime_iso := by
    intro dt low high
    rw [yearFirst_iso ⟨low, high⟩, if_pos rfl]
    exact readDateTime_iso dt.date dt.time ⟨low, high⟩

/-- The gateway answers half a second in front of a whole one and drops a second later. -/
def droppedAtHalf : RecordTables :=
  ⟨[.gatewayOnly 1756731899500000 .ok, .gatewayOnly 1756731900500000 .fail], [], [], [], [], [],
    [⟨"gw-drop-1756731900500000", 1756731900500000, none, "gw-drop", "gw=FAIL"⟩]⟩

def halfDrop : IncidentSummary :=
  ⟨"gw-drop-1756731900500000", 1756731900500000, none, "gw-drop", "gw=FAIL"⟩

theorem printed_time_leads_back_iff_droppedAtHalf :
    PrintLeadsBack utcClock .zero droppedAtHalf [halfDrop] false 0
        (.gatewayOnly 1756731900500000 .fail) ↔
      utcClock.PrintedWhole 1756731900500000 ∧ ¬ droppedAtHalf.SilenceOpens 1756731900500000 :=
  printed_time_leads_back_iff utcClock .zero droppedAtHalf (by decide)
    (.gatewayOnly 1756731900500000 .fail) (by decide) [halfDrop] false 0 halfDrop rfl rfl

/-- The cell of that incident is read as the whole second, where the gateway still answered. -/
theorem printed_second_before_drop :
    LeadsTo utcClock .zero droppedAtHalf (String.ofList (utcClock.openedLocal halfDrop.openedUs))
        (.gatewayOnly 1756731899500000 .ok) ∧
      ¬ PrintLeadsBack utcClock .zero droppedAtHalf [halfDrop] false 0
        (.gatewayOnly 1756731900500000 .fail) := by
  have held : IsInstant (1756731900500000 * 1000) := by decide
  have year : 0 ≤ (utcClock.civil (1756731900500000 * 1000)).date.year := by
    have nanos : (utcClock.civil (1756731900500000 * 1000)).nanos = 1756731900500000000 :=
      DateTime.nanos_ofNanos _
    have first_ : (Date.first 0 1 Date.january_low Date.january_high).number = -719528 := rfl
    rw [DateTime.year_le_iff, nanos, first_]
    decide
  have parsed : utcClock.parseAt (String.ofList (utcClock.openedLocal halfDrop.openedUs)) =
      .ok 1756731900000000 :=
    utcClock.parseAt_opened_iff.mpr ⟨held, year, by decide, rfl⟩
  have shown : droppedAtHalf.verdictAt .zero 1756731900000000 =
      [⟨some ⟨.gatewayOnly 1756731899500000 .ok, none, none, .unknown⟩, .unknown, none⟩] := by
    have outside : ¬ droppedAtHalf.InGap 1756731900000000 := by decide
    rw [RecordTables.verdictAt_outside outside]
    rfl
  refine ⟨⟨_, parsed, _, shown, rfl⟩, ?_⟩
  rw [printLeadsBack_iff (i := halfDrop) rfl]
  intro ⟨t, own, s, other, link⟩
  rw [parsed] at own
  cases own
  rw [shown] at other
  cases other
  cases link

end NetObserver
