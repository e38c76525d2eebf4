import NetObserver.KeyRuns
import NetObserver.ProxyCollector
import NetObserver.ProxyConditions
import NetObserver.Runs

/-! The absence of a node's URL test over ticks, pauses and resumes, and what the dial-stall
condition makes of it. -/

namespace NetObserver

open Machine

/-- What the condition reads: of the newest two ticks, the first with the selected node's
reading. -/
def dialStallReading (w : RecentWindow) : Option (Int × SelectedUrlTest) :=
  ((selectedUrltests (w.recentProxy dialStallScan)).take 2).findSome? fun tick =>
    tick.2.map fun t => (tick.1, t)

theorem dialStallThresholdUs_bounds (urltestInterval : Nat) :
    i64Min < dialStallThresholdUs urltestInterval ∧
      dialStallThresholdUs urltestInterval ≤ i64Max := by
  have capped (us : Nat) : i64Min < min (us : Int) i64Max ∧ min (us : Int) i64Max ≤ i64Max := by
    unfold i64Min i64Max
    omega
  unfold dialStallThresholdUs
  dsimp only
  exact capped _

/-- The condition fires on a dated absence as long as it asks for, whose endpoint answers. -/
theorem endpointDialStall_isSome_iff {urltestInterval : Nat} {w : RecentWindow} :
    ((endpointDialStall urltestInterval).eval w).isSome ↔
      ∃ tsUs test sinceUs, dialStallReading w = some (tsUs, test) ∧ test.tcp = .ok ∧
        test.absentSinceUs = some sinceUs ∧
        dialStallThresholdUs urltestInterval ≤ tsUs - sinceUs := by
  obtain ⟨low, high⟩ := dialStallThresholdUs_bounds urltestInterval
  constructor
  · intro fires
    obtain ⟨fire, fires⟩ := Option.isSome_iff_exists.mp fires
    obtain ⟨⟨tsUs, test⟩, read, rest⟩ := Option.bind_eq_some_iff.mp fires
    dsimp only at rest
    split at rest
    next => cases rest
    next answers =>
      obtain ⟨sinceUs, dated, rest⟩ := Option.bind_eq_some_iff.mp rest
      split at rest
      next => cases rest
      next long =>
        rw [satSub_lt_iff low high] at long
        exact ⟨tsUs, test, sinceUs, read, not_not.mp answers, dated, by omega⟩
  · rintro ⟨tsUs, test, sinceUs, read, answers, dated, long⟩
    have short : ¬ satSub tsUs sinceUs < dialStallThresholdUs urltestInterval := by
      rw [satSub_lt_iff low high]
      omega
    cases fires : (endpointDialStall urltestInterval).eval w with
    | some fire => rfl
    | none =>
      have silent := Option.bind_eq_none_iff.mp fires (tsUs, test) read
      dsimp only at silent
      rw [if_neg (not_not.mpr answers), dated] at silent
      have silent := Option.bind_eq_none_iff.mp silent sinceUs rfl
      split at silent
      next gone => exact absurd gone short
      next => cases silent

/-- A tick's rows share its stamp. -/
theorem tsUs_of_mem_tickRows {rows tick : List ProxySample} (cut : tick ∈ tickRows rows)
    {a b : ProxySample} (ha : a ∈ tick) (hb : b ∈ tick) : a.tsUs = b.tsUs := by
  have run : tick ∈ KeyRuns.runsBy (·.tsUs) rows := cut
  exact KeyRuns.same_key_of_mem_runsBy run ha hb

/-- The reading stands on a row of the window. -/
theorem row_of_dialStallReading {w : RecentWindow} {tsUs : Int} {test : SelectedUrlTest}
    (read : dialStallReading w = some (tsUs, test)) :
    ∃ r, Sample.proxy r ∈ w.buf.items ∧ r.tsUs = tsUs ∧ r.urltestNode = some test.node ∧
      r.urltestAbsentSinceUs = test.absentSinceUs := by
  obtain ⟨tick, taken, mapped⟩ := List.exists_of_findSome?_eq_some read
  obtain ⟨t, found, eq⟩ := Option.map_eq_some_iff.mp mapped
  obtain ⟨rfl, rfl⟩ := Prod.mk.inj eq
  obtain ⟨rows, cut, headed⟩ := List.mem_filterMap.mp (List.mem_of_mem_take taken)
  obtain ⟨first, head, rfl⟩ := Option.map_eq_some_iff.mp headed
  obtain ⟨r, listed, reads⟩ := List.exists_of_findSome?_eq_some found
  obtain ⟨node, named, -, rfl⟩ := selectedUrltest_eq_some_iff.mp reads
  have recent : r ∈ w.recentProxy dialStallScan := by
    have all : (tickRows (w.recentProxy dialStallScan)).flatten = w.recentProxy dialStallScan :=
      List.flatten_splitBy _ _
    rw [← all]
    exact List.mem_flatten_of_mem cut listed
  obtain ⟨s, kept, isProxy⟩ := List.mem_filterMap.mp (List.mem_of_mem_take recent)
  have isRow : s = .proxy r := by
    cases s <;> cases isProxy
    rfl
  refine ⟨r, ?_, tsUs_of_mem_tickRows cut listed (List.mem_of_head? head), named, rfl⟩
  rw [← isRow]
  exact List.mem_reverse.mp kept

/-- The proxy collector under pauses, resumes and tier switches, its rows on their way to the
window, and every read of a node's history so far, oldest first. -/
structure ProxyWatch where
  tier : ProbingTier
  observing : Bool
  memory : String → Option UrltestMemory
  pending : List ProxySample
  window : RecentWindow
  clockUs : Int
  resumedUs : Option Int
  reads : List NodeRead

def ProxyWatch.start (tier : ProbingTier) (observing : Bool) : ProxyWatch where
  tier := tier
  observing := observing
  memory := fun _ => none
  pending := []
  window := .new windowCap
  clockUs := 0
  resumedUs := none
  reads := []

inductive WatchStep where
  | tick (tsUs : Int) (answers : ProxyAnswers)
  | skipTick (tsUs : Int)
  | deliver
  | other (s : Sample)
  | switchTier (tier : ProbingTier) (tsUs : Int)
  | pause (tsUs : Int)
  | resume (tsUs : Int)

namespace ProxyWatch

def session (d : ProxyWatch) (tsUs : Int) : ProxyWatch :=
  { d with pending := [], window := d.window.clearForResume, clockUs := tsUs }

/-- Rows under way at a resume or a switch stay out of the window. -/
def step (d : ProxyWatch) : WatchStep → Option ProxyWatch
  | .tick tsUs answers =>
    if d.observing ∧ d.clockUs < tsUs then
      let (memory, rows) := answers.collect d.tier d.memory tsUs
      some { d with
        memory := memory
        pending := d.pending ++ rows
        clockUs := tsUs
        reads := d.reads ++ answers.reads tsUs }
    else none
  | .skipTick tsUs =>
    if d.observing ∧ d.clockUs < tsUs then
      some { d with
        pending := d.pending ++ [sharedRow tsUs none none ⟨none, none⟩]
        clockUs := tsUs }
    else none
  | .deliver =>
    match d.pending with
    | row :: rest => some { d with pending := rest, window := d.window.push (.proxy row) }
    | [] => none
  | .other s => if s.proxy?.isNone then some { d with window := d.window.push s } else none
  | .switchTier tier tsUs =>
    if d.tier ≠ tier ∧ d.clockUs < tsUs then some { d.session tsUs with tier := tier } else none
  | .pause tsUs =>
    if d.observing ∧ d.clockUs < tsUs then some { d with observing := false, clockUs := tsUs }
    else none
  | .resume tsUs =>
    if ¬ d.observing ∧ d.clockUs < tsUs then
      some { d.session tsUs with observing := true, resumedUs := some tsUs }
    else none

end ProxyWatch

/-- The reads of a node that a URLTest group re-tests. -/
def retestedReads (reads : List NodeRead) (node : String) : Set NodeRead :=
  {r | r ∈ reads ∧ r.node = node ∧ r.retested = true}

/-- The instant of the first empty read after one that showed an entry, with only empty ones
since. -/
def DatedAbsence (reads : Set NodeRead) (sinceUs : Int) : Prop :=
  ∃ shown ∈ reads, shown.entry.isSome ∧ ∃ first ∈ reads, first.entry = none ∧
    first.tsUs = sinceUs ∧ shown.tsUs < sinceUs ∧
    ∀ r ∈ reads, shown.tsUs < r.tsUs → r.entry = none ∧ sinceUs ≤ r.tsUs

/-- What the memory of a node says of its re-tested reads. -/
def MemoryTells (reads : Set NodeRead) : Option UrltestMemory → Prop
  | none => ∀ r ∈ reads, r.entry = none
  | some .present => ∃ shown ∈ reads, shown.entry.isSome ∧ ∀ r ∈ reads, r.tsUs ≤ shown.tsUs
  | some (.absentSince sinceUs) => DatedAbsence reads sinceUs

theorem retestedReads_snoc (reads : List NodeRead) (r : NodeRead) (node : String) :
    retestedReads (reads ++ [r]) node =
      if r.node = node ∧ r.retested = true then insert r (retestedReads reads node)
      else retestedReads reads node := by
  ext q
  split
  next added =>
    simp only [retestedReads, Set.mem_ofPred_eq, Set.mem_insert_iff, List.mem_append,
      List.mem_singleton]
    constructor
    · rintro ⟨old | rfl, named⟩
      · exact .inr ⟨old, named⟩
      · exact .inl rfl
    · rintro (rfl | ⟨old, named⟩)
      · exact ⟨.inr rfl, added⟩
      · exact ⟨.inl old, named⟩
  next apart =>
    simp only [retestedReads, Set.mem_ofPred_eq, List.mem_append, List.mem_singleton]
    constructor
    · rintro ⟨old | rfl, named⟩
      · exact ⟨old, named⟩
      · exact absurd named apart
    · rintro ⟨old, named⟩
      exact ⟨.inl old, named⟩

theorem retestedReads_append_other {reads more : List NodeRead} {node : String}
    (others : ∀ r ∈ more, r.node ≠ node) :
    retestedReads (reads ++ more) node = retestedReads reads node := by
  ext q
  simp only [retestedReads, Set.mem_ofPred_eq, List.mem_append]
  constructor
  · rintro ⟨old | new, named⟩
    · exact ⟨old, named⟩
    · exact absurd named.1 (others q new)
  · rintro ⟨old, named⟩
    exact ⟨.inl old, named⟩

/-- A later empty read of an absent node keeps the absence. -/
theorem DatedAbsence.insert {reads : Set NodeRead} {sinceUs : Int} {r : NodeRead}
    (dated : DatedAbsence reads sinceUs) (empty : r.entry = none) (later : sinceUs < r.tsUs) :
    DatedAbsence (insert r reads) sinceUs := by
  obtain ⟨shown, old, some_entry, first, listed, none_entry, stamped, before, since⟩ := dated
  refine ⟨shown, .inr old, some_entry, first, .inr listed, none_entry, stamped, before, ?_⟩
  rintro q (rfl | earlier) behind
  · exact ⟨empty, Int.le_of_lt later⟩
  · exact since q earlier behind

/-- One read of a re-tested node, later than the others. -/
theorem memoryTells_noteUrltest {reads : Set NodeRead} {memory : String → Option UrltestMemory}
    {r : NodeRead} (tells : MemoryTells reads (memory r.node))
    (later : ∀ q ∈ reads, q.tsUs < r.tsUs) :
    let noted := noteUrltest memory r.node r.entry r.tsUs
    MemoryTells (insert r reads) (noted.1 r.node) ∧
      ∀ sinceUs, noted.2 = some sinceUs → DatedAbsence (insert r reads) sinceUs := by
  dsimp only
  cases entry : r.entry with
  | some e =>
    simp only [noteUrltest, Function.update_self]
    refine ⟨⟨r, Set.mem_insert r reads, by rw [entry]; rfl, ?_⟩, fun _ none_dated => by cases none_dated⟩
    rintro q (rfl | old)
    · exact Int.le_refl _
    · exact Int.le_of_lt (later q old)
  | none =>
    cases known : memory r.node with
    | none =>
      rw [known] at tells
      simp only [noteUrltest, known]
      refine ⟨?_, fun _ none_dated => by cases none_dated⟩
      rintro q (rfl | old)
      · exact entry
      · exact tells q old
    | some m =>
      rw [known] at tells
      cases m with
      | absentSince sinceUs =>
        obtain ⟨shown, old, some_entry, first, listed, none_entry, stamped, rest⟩ := tells
        have after : sinceUs < r.tsUs := stamped ▸ later first listed
        have dated : DatedAbsence (insert r reads) sinceUs := by
          refine DatedAbsence.insert ?_ entry after
          exact ⟨shown, old, some_entry, first, listed, none_entry, stamped, rest⟩
        simp only [noteUrltest, known]
        exact ⟨dated, fun since same => by cases same; exact dated⟩
      | present =>
        obtain ⟨shown, old, some_entry, newest⟩ := tells
        have dated : DatedAbsence (insert r reads) r.tsUs := by
          refine ⟨shown, .inr old, some_entry, r, .inl rfl, entry, rfl, later shown old, ?_⟩
          rintro q (rfl | earlier) behind
          · exact ⟨entry, Int.le_refl _⟩
          · have before := newest q earlier
            omega
        simp only [noteUrltest, known, Function.update_self]
        exact ⟨dated, fun since same => by cases same; exact dated⟩

theorem noteUrltest_other {memory : String → Option UrltestMemory} {node other : String}
    (apart : other ≠ node) (entry : Option UrlTestEntry) (tsUs : Int) :
    (noteUrltest memory node entry tsUs).1 other = memory other := by
  unfold noteUrltest
  split
  · exact Function.update_of_ne apart _ _
  · rfl
  · rfl
  · exact Function.update_of_ne apart _ _

/-- One read, of a node that was read only earlier. -/
theorem memoryTells_note {reads : List NodeRead} {memory : String → Option UrltestMemory}
    {r : NodeRead} (tells : ∀ node, MemoryTells (retestedReads reads node) (memory node))
    (later : ∀ q ∈ reads, q.node = r.node → q.tsUs < r.tsUs) :
    (∀ node, MemoryTells (retestedReads (reads ++ [r]) node) ((r.note memory).1 node)) ∧
      ∀ sinceUs, (r.note memory).2 = some sinceUs →
        DatedAbsence (retestedReads (reads ++ [r]) r.node) sinceUs := by
  unfold NodeRead.note
  split
  next retested =>
    obtain ⟨here, dated⟩ := memoryTells_noteUrltest (tells r.node)
      fun q listed => later q listed.1 listed.2.1
    refine ⟨fun node => ?_, ?_⟩
    · rw [retestedReads_snoc]
      by_cases same : r.node = node
      · subst same
        rw [if_pos ⟨rfl, retested⟩]
        exact here
      · rw [if_neg fun both => same both.1, noteUrltest_other (Ne.symm same)]
        exact tells node
    · rw [retestedReads_snoc, if_pos ⟨rfl, retested⟩]
      exact dated
  next untouched =>
    refine ⟨fun node => ?_, fun _ none_dated => by cases none_dated⟩
    rw [retestedReads_snoc, if_neg fun both => untouched both.2]
    exact tells node

/-- The reads of a tick: the memory still tells, and dates what it says is absent. -/
theorem memoryTells_noteReads {reads new : List NodeRead} {memory : String → Option UrltestMemory}
    (tells : ∀ node, MemoryTells (retestedReads reads node) (memory node))
    (later : ∀ q ∈ reads, ∀ r ∈ new, q.node = r.node → q.tsUs < r.tsUs)
    (apart : (new.map NodeRead.node).Nodup) :
    (∀ node, MemoryTells (retestedReads (reads ++ new) node) ((noteReads memory new).1 node)) ∧
      ∀ n ∈ (noteReads memory new).2, ∀ sinceUs, n.2 = some sinceUs →
        DatedAbsence (retestedReads (reads ++ new) n.1.node) sinceUs := by
  induction new generalizing reads memory with
  | nil =>
    rw [List.append_nil]
    exact ⟨tells, fun n none_noted => absurd none_noted List.not_mem_nil⟩
  | cons r new ih =>
    rw [List.map_cons, List.nodup_cons] at apart
    obtain ⟨unlike, rest⟩ := apart
    have others : ∀ q ∈ new, q.node ≠ r.node := by
      intro q listed same
      exact unlike (same ▸ List.mem_map_of_mem listed)
    obtain ⟨told, dated⟩ := memoryTells_note tells fun q old => later q old r List.mem_cons_self
    have later' : ∀ q ∈ reads ++ [r], ∀ p ∈ new, q.node = p.node → q.tsUs < p.tsUs := by
      intro q old p listed same
      rcases List.mem_append.mp old with earlier | now
      · exact later q earlier p (List.mem_cons_of_mem r listed) same
      · rw [List.mem_singleton.mp now] at same
        exact absurd same.symm (others p listed)
    obtain ⟨tells', dates⟩ := ih told later' rest
    have whole : reads ++ r :: new = reads ++ [r] ++ new := by rw [List.append_assoc]; rfl
    rw [whole]
    refine ⟨tells', fun n noted sinceUs absent => ?_⟩
    rcases List.mem_cons.mp noted with rfl | behind
    · rw [retestedReads_append_other others]
      exact dated sinceUs absent
    · exact dates n behind sinceUs absent

/-- The reads no later than an instant. -/
def readsBy (reads : List NodeRead) (tsUs : Int) : List NodeRead :=
  reads.filter fun r => r.tsUs ≤ tsUs

theorem readsBy_append_later {reads new : List NodeRead} {tsUs : Int}
    (later : ∀ r ∈ new, tsUs < r.tsUs) : readsBy (reads ++ new) tsUs = readsBy reads tsUs := by
  have none_kept : new.filter (fun r => r.tsUs ≤ tsUs) = [] := by
    refine List.filter_eq_nil_iff.mpr fun r listed => ?_
    have after := later r listed
    simpa using after
  unfold readsBy
  rw [List.filter_append, none_kept, List.append_nil]

theorem readsBy_of_le {reads : List NodeRead} {tsUs : Int} (all : ∀ r ∈ reads, r.tsUs ≤ tsUs) :
    readsBy reads tsUs = reads := by
  unfold readsBy
  rw [List.filter_eq_self]
  exact fun r listed => by simpa using all r listed

/-- A row's absence is dated by the reads up to its tick. -/
structure RowDated (reads : List NodeRead) (clockUs : Int) (r : ProxySample) : Prop where
  past : r.tsUs ≤ clockUs
  dated : ∀ node sinceUs, r.urltestNode = some node → r.urltestAbsentSinceUs = some sinceUs →
    DatedAbsence (retestedReads (readsBy reads r.tsUs) node) sinceUs

theorem RowDated.grow {reads new : List NodeRead} {clockUs later : Int} {r : ProxySample}
    (row : RowDated reads clockUs r) (behind : ∀ q ∈ new, clockUs < q.tsUs) (le : clockUs ≤ later) :
    RowDated (reads ++ new) later r := by
  obtain ⟨past, dated⟩ := row
  have same : readsBy (reads ++ new) r.tsUs = readsBy reads r.tsUs := by
    refine readsBy_append_later fun q listed => ?_
    have after := behind q listed
    omega
  refine ⟨Int.le_trans past le, ?_⟩
  rw [same]
  exact dated

theorem RowDated.later {reads : List NodeRead} {clockUs later : Int} {r : ProxySample}
    (row : RowDated reads clockUs r) (le : clockUs ≤ later) : RowDated reads later r :=
  ⟨Int.le_trans row.past le, row.dated⟩

structure ProxyWatch.Sound (d : ProxyWatch) : Prop where
  tells : ∀ node, MemoryTells (retestedReads d.reads node) (d.memory node)
  past : ∀ r ∈ d.reads, r.tsUs ≤ d.clockUs
  rising : d.reads.Pairwise fun a b => a.node = b.node → a.tsUs < b.tsUs
  pending : ∀ r ∈ d.pending, RowDated d.reads d.clockUs r
  window : ∀ r, Sample.proxy r ∈ d.window.buf.items → RowDated d.reads d.clockUs r

namespace ProxyWatch

theorem sound_start (tier : ProbingTier) (observing : Bool) : (start tier observing).Sound := by
  refine ⟨fun node r listed => absurd listed.1 List.not_mem_nil, ?_, List.Pairwise.nil, ?_, ?_⟩
  · exact fun r none_read => absurd none_read List.not_mem_nil
  · exact fun r none_pending => absurd none_pending List.not_mem_nil
  · exact fun r empty => absurd empty List.not_mem_nil

/-- Time passes over the rows. -/
theorem Sound.tick {d : ProxyWatch} (sound : d.Sound) {tsUs : Int} (later : d.clockUs < tsUs) :
    Sound { d with clockUs := tsUs } := by
  have le := Int.le_of_lt later
  refine ⟨sound.tells, fun r listed => Int.le_trans (sound.past r listed) le, sound.rising, ?_, ?_⟩
  · exact fun r listed => (sound.pending r listed).later le
  · exact fun r kept => (sound.window r kept).later le

theorem Sound.session {d : ProxyWatch} (sound : d.Sound) {tsUs : Int} (later : d.clockUs < tsUs) :
    (d.session tsUs).Sound := by
  obtain ⟨tells, past, rising, -, -⟩ := sound.tick later
  refine ⟨tells, past, rising, ?_, ?_⟩
  · exact fun r none_pending => absurd none_pending List.not_mem_nil
  · exact fun r empty => absurd empty List.not_mem_nil

/-- A row that carries no reading needs no date. -/
theorem rowDated_skip (reads : List NodeRead) (tsUs : Int) :
    RowDated reads tsUs (sharedRow tsUs none none ⟨none, none⟩) :=
  ⟨Int.le_refl _, fun _ _ carried => by cases carried⟩

theorem sound_collected {d : ProxyWatch} (sound : d.Sound) {tsUs : Int} (later : d.clockUs < tsUs)
    (answers : ProxyAnswers) :
    Sound { d with
      memory := (answers.collect d.tier d.memory tsUs).1
      pending := d.pending ++ (answers.collect d.tier d.memory tsUs).2
      clockUs := tsUs
      reads := d.reads ++ answers.reads tsUs } := by
  obtain ⟨tells, past, rising, pending, window⟩ := sound
  have stamped : ∀ r ∈ answers.reads tsUs, r.tsUs = tsUs :=
    fun r listed => ProxyAnswers.tsUs_of_mem_reads listed
  have behind : ∀ q ∈ d.reads, ∀ r ∈ answers.reads tsUs, q.tsUs < r.tsUs := by
    intro q old r new
    have before := past q old
    rw [stamped r new]
    omega
  have fresh : ∀ r ∈ answers.reads tsUs, d.clockUs < r.tsUs := by
    intro r new
    rwa [stamped r new]
  have le := Int.le_of_lt later
  have all : ∀ r ∈ d.reads ++ answers.reads tsUs, r.tsUs ≤ tsUs := by
    intro r listed
    rcases List.mem_append.mp listed with old | new
    · exact Int.le_trans (past r old) le
    · exact Int.le_of_eq (stamped r new)
  obtain ⟨memory, rows⟩ := @ProxyAnswers.carries_collect answers d.tier d.memory tsUs
  obtain ⟨tells', dates⟩ := memoryTells_noteReads tells (fun q old r new _ => behind q old r new)
    (answers.reads_nodup tsUs)
  refine ⟨?_, all, ?_, ?_, ?_⟩
  · rw [memory]
    exact tells'
  · refine List.pairwise_append.mpr ⟨rising, ?_, fun q old r new _ => behind q old r new⟩
    refine (List.pairwise_map.mp (answers.reads_nodup tsUs)).imp fun apart same => ?_
    exact absurd same apart
  · intro r listed
    rcases List.mem_append.mp listed with old | new
    · exact (pending r old).grow fresh le
    · obtain ⟨time, carried⟩ := rows r new
      refine ⟨Int.le_of_eq time, fun node sinceUs named absent => ?_⟩
      obtain ⟨n, noted, rfl, same⟩ := carried node named
      rw [time, readsBy_of_le all]
      exact dates n noted sinceUs (same.trans absent)
  · exact fun r kept => (window r kept).grow fresh le

theorem sound_step {d d' : ProxyWatch} {label : WatchStep} (stepped : d.step label = some d')
    (sound : d.Sound) : d'.Sound := by
  cases label with
  | tick tsUs answers =>
    simp only [step] at stepped
    split at stepped
    next ticks =>
      cases stepped
      exact sound_collected sound ticks.2 answers
    next => cases stepped
  | skipTick tsUs =>
    simp only [step] at stepped
    split at stepped
    next ticks =>
      cases stepped
      obtain ⟨tells, past, rising, pending, window⟩ := sound.tick ticks.2
      refine ⟨tells, past, rising, fun r listed => ?_, window⟩
      rcases List.mem_append.mp listed with old | new
      · exact pending r old
      · rw [List.mem_singleton.mp new]
        exact rowDated_skip _ _
    next => cases stepped
  | deliver =>
    simp only [step] at stepped
    split at stepped
    next row rest queue =>
      cases stepped
      obtain ⟨tells, past, rising, pending, window⟩ := sound
      rw [queue] at pending
      refine ⟨tells, past, rising, fun r listed => pending r (List.mem_cons_of_mem row listed), ?_⟩
      intro r kept
      rcases BoundedBuffer.mem_push kept with old | new
      · exact window r old
      · cases new
        exact pending row List.mem_cons_self
    next => cases stepped
  | other s =>
    simp only [step] at stepped
    split at stepped
    next notProxy =>
      cases stepped
      obtain ⟨tells, past, rising, pending, window⟩ := sound
      refine ⟨tells, past, rising, pending, fun r kept => ?_⟩
      rcases BoundedBuffer.mem_push kept with old | new
      · exact window r old
      · rw [← new] at notProxy
        cases notProxy
    next => cases stepped
  | switchTier tier tsUs =>
    simp only [step] at stepped
    split at stepped
    next moves =>
      cases stepped
      obtain ⟨tells, past, rising, pending, window⟩ := sound.session moves.2
      exact ⟨tells, past, rising, pending, window⟩
    next => cases stepped
  | pause tsUs =>
    simp only [step] at stepped
    split at stepped
    next moves =>
      cases stepped
      obtain ⟨tells, past, rising, pending, window⟩ := sound.tick moves.2
      exact ⟨tells, past, rising, pending, window⟩
    next => cases stepped
  | resume tsUs =>
    simp only [step] at stepped
    split at stepped
    next moves =>
      cases stepped
      obtain ⟨tells, past, rising, pending, window⟩ := sound.session moves.2
      exact ⟨tells, past, rising, pending, window⟩
    next => cases stepped

end ProxyWatch

/-- An absence that was observed for as long as the condition asks: the node read empty ever
since, from the first empty re-tested read after one with an entry, and the time lies behind the
last resume. -/
structure ObservedAbsence (reads : List NodeRead) (resumedUs : Option Int) (requiredUs : Int)
    (node : String) (sinceUs tsUs : Int) : Prop where
  empty : ∀ r ∈ reads, r.node = node → sinceUs ≤ r.tsUs → r.entry = none
  dated : ∃ shown ∈ reads, shown.node = node ∧ shown.entry.isSome ∧ ∃ first ∈ reads,
    first.node = node ∧ first.retested = true ∧ first.entry = none ∧ first.tsUs = sinceUs ∧
      shown.tsUs < sinceUs ∧ ∀ r ∈ reads, r.node = node → r.retested = true → r.entry = none →
        shown.tsUs < r.tsUs → sinceUs ≤ r.tsUs
  observed : requiredUs ≤ tsUs - resumedUs.elim sinceUs (max sinceUs)

/-- An entry seen on a node that nothing re-tests, behind a re-tested read that missed it, is seen
on a re-tested one too; and the tick lies behind the last resume by the time the condition asks
for. -/
structure AbsenceJudged (reads : List NodeRead) (resumedUs : Option Int) (requiredUs : Int)
    (node : String) (tsUs : Int) : Prop where
  retested : ∀ missed ∈ reads, missed.node = node → missed.retested = true → missed.entry = none →
    ∀ seen ∈ reads, seen.node = node → seen.retested = false → seen.entry.isSome →
      missed.tsUs < seen.tsUs → ∃ shown ∈ reads, shown.node = node ∧ shown.retested = true ∧
        shown.entry.isSome ∧ missed.tsUs < shown.tsUs
  session : ∀ resumed, resumedUs = some resumed → requiredUs ≤ tsUs - resumed

/-- A node is read once an instant. -/
theorem read_unique {reads : List NodeRead}
    (rising : reads.Pairwise fun a b => a.node = b.node → a.tsUs < b.tsUs) {a b : NodeRead}
    (ha : a ∈ reads) (hb : b ∈ reads) (same : a.node = b.node) (time : a.tsUs = b.tsUs) : a = b := by
  have unique : reads.Pairwise fun a b => a.node = b.node → a.tsUs = b.tsUs → a = b := by
    refine rising.imp fun before same time => ?_
    have earlier := before same
    omega
  have back : reads.Pairwise (flip fun a b => a.node = b.node → a.tsUs = b.tsUs → a = b) :=
    unique.imp fun eq same time => (eq same.symm time.symm).symm
  exact unique.forall_of_forall_of_flip (fun _ _ _ _ => rfl) back ha hb same time

theorem observedAbsence_iff {reads : List NodeRead} {resumedUs : Option Int} {requiredUs : Int}
    {node : String} {sinceUs tsUs : Int}
    (rising : reads.Pairwise fun a b => a.node = b.node → a.tsUs < b.tsUs)
    (dated : DatedAbsence (retestedReads reads node) sinceUs)
    (long : requiredUs ≤ tsUs - sinceUs) :
    ObservedAbsence reads resumedUs requiredUs node sinceUs tsUs ↔
      AbsenceJudged reads resumedUs requiredUs node tsUs := by
  obtain ⟨shown, ⟨shownIn, shownNode, shownRetested⟩, shownEntry, first,
    ⟨firstIn, firstNode, firstRetested⟩, firstEmpty, rfl, before, since⟩ := dated
  constructor
  · rintro ⟨empty, -, observed⟩
    refine ⟨?_, ?_⟩
    · intro missed missedIn missedNode missedRetested missedEmpty seen seenIn seenNode _ seenEntry
        later
      by_contra unshown
      have notBefore : ¬ missed.tsUs < shown.tsUs := fun earlier =>
        unshown ⟨shown, shownIn, shownNode, shownRetested, shownEntry, earlier⟩
      have notAt : missed.tsUs ≠ shown.tsUs := by
        intro time
        have same := read_unique rising missedIn shownIn (missedNode.trans shownNode.symm) time
        rw [← same, missedEmpty] at shownEntry
        cases shownEntry
      obtain ⟨-, dated⟩ := since missed ⟨missedIn, missedNode, missedRetested⟩ (by omega)
      have none_seen := empty seen seenIn seenNode (by omega)
      rw [none_seen] at seenEntry
      cases seenEntry
    · intro resumed eq
      rw [eq, Option.elim_some] at observed
      omega
  · rintro ⟨retested, session⟩
    refine ⟨?_, ?_, ?_⟩
    · intro r listed named notBefore
      cases isRetested : r.retested with
      | true => exact (since r ⟨listed, named, isRetested⟩ (by omega)).1
      | false =>
        by_contra entry
        have apart : r.tsUs ≠ first.tsUs := by
          intro time
          have same := read_unique rising listed firstIn (named.trans firstNode.symm) time
          rw [same, firstRetested] at isRetested
          cases isRetested
        obtain ⟨again, againIn, againNode, againRetested, againEntry, later⟩ :=
          retested first firstIn firstNode firstRetested firstEmpty r listed named isRetested
            (Option.isSome_iff_ne_none.mpr entry) (by omega)
        obtain ⟨none_entry, -⟩ := since again ⟨againIn, againNode, againRetested⟩ (by omega)
        rw [none_entry] at againEntry
        cases againEntry
    · exact ⟨shown, shownIn, shownNode, shownEntry, first, firstIn, firstNode, firstRetested,
        firstEmpty, rfl, before, fun r listed named isRetested _ behind =>
          (since r ⟨listed, named, isRetested⟩ behind).2⟩
    · cases resumed : resumedUs with
      | none => exact long
      | some u =>
        have apart := session u resumed
        rw [Option.elim_some]
        omega

/-- Over every run of ticks, pauses and resumes, a firing rests on an absence observed for the
required time exactly when the tick is that long after the last resume and the node's entry has
not been seen meanwhile on a read that no group re-tests. -/
theorem dial_stall_observed_iff {tier : ProbingTier} {observing : Bool} {labels : List WatchStep}
    {d : ProxyWatch} (ran : Runs.runSteps ProxyWatch.step (.start tier observing) labels = some d)
    {urltestInterval : Nat} (fires : ((endpointDialStall urltestInterval).eval d.window).isSome) :
    ∃ tsUs test sinceUs, dialStallReading d.window = some (tsUs, test) ∧
      test.absentSinceUs = some sinceUs ∧
      (ObservedAbsence (readsBy d.reads tsUs) d.resumedUs (dialStallThresholdUs urltestInterval)
          test.node sinceUs tsUs ↔
        AbsenceJudged (readsBy d.reads tsUs) d.resumedUs (dialStallThresholdUs urltestInterval)
          test.node tsUs) := by
  have sound := Runs.runSteps_invariant (fun _ _ _ => ProxyWatch.sound_step) ran
    (ProxyWatch.sound_start tier observing)
  obtain ⟨tsUs, test, sinceUs, read, -, absent, long⟩ :=
    endpointDialStall_isSome_iff.mp fires
  obtain ⟨r, kept, rfl, named, carried⟩ := row_of_dialStallReading read
  have dated := (sound.window r kept).dated test.node sinceUs named (carried.trans absent)
  have rising : (readsBy d.reads r.tsUs).Pairwise fun a b => a.node = b.node → a.tsUs < b.tsUs :=
    sound.rising.filter _
  exact ⟨r.tsUs, test, sinceUs, read, absent, observedAbsence_iff rising dated long⟩

/-- One node under one URLTest group. -/
def soloNode (entry : Option UrlTestEntry) : ProxyInfo := ⟨"node-a", "VLESS", none, [], entry⟩
def soloGroup : ProxyInfo := ⟨"auto", "URLTest", some "node-a", ["node-a"], none⟩

def soloAnswers (entry : Option UrlTestEntry) : ProxyAnswers where
  tunCode := 204
  group := some soloGroup
  proxies := fun _ => [some (soloNode entry)]
  nodeEndpoints := [("node-a", "1.1.1.1:443")]
  stall := ⟨none, none⟩
  connect := fun _ _ => ⟨true, none⟩

def soloRow (tsUs : Int) (entry : Option UrlTestEntry) (absentSinceUs : Option Int) : ProxySample :=
  ⟨tsUs, "1.1.1.1:443", .ok, none, some 204, some "node-a", none, none, none, none,
    entry.map (·.ms), entry.map (·.atUs), some "node-a", absentSinceUs⟩

theorem soloNode_kinds (entry : Option UrlTestEntry) :
    (soloNode entry).isGroup = false ∧ (soloNode entry).isUntestable = false ∧
      (soloNode entry).isUrltest = false := by
  simp [soloNode, ProxyInfo.isGroup, ProxyInfo.isUntestable, ProxyInfo.isUrltest, ProxyInfo.isKind]

theorem readGroup_solo (entry : Option UrlTestEntry) :
    readGroup (soloAnswers entry).group (soloAnswers entry).proxies =
      some ⟨some "node-a", ["node-a"], [("auto", soloGroup), ("node-a", soloNode entry)],
        ["node-a"]⟩ := by
  obtain ⟨group, untestable, urltest⟩ := soloNode_kinds entry
  have urltest' : soloGroup.isUrltest = true := by decide
  have levels : readLevels (soloAnswers entry).proxies maxGroupDepth ["auto"] ["node-a"] =
      (["node-a"], [("node-a", soloNode entry)]) := by
    simp [readLevels, maxGroupDepth, freshNames, soloAnswers, group, untestable]
  have selected : descend [("auto", soloGroup), ("node-a", soloNode entry)] maxGroupDepth soloGroup
      none = some "node-a" := by
    have found : [("auto", soloGroup), ("node-a", soloNode entry)].lookup "node-a" =
        some (soloNode entry) := by
      simp [List.lookup_cons]
    change descend _ (7 + 1) soloGroup none = some "node-a"
    rw [descend]
    simp only [soloGroup] at found ⊢
    rw [found]
    simp [group]
  simp only [readGroup, soloAnswers, Option.map_some] at levels ⊢
  rw [show soloGroup.name = "auto" from rfl, show soloGroup.all = ["node-a"] from rfl, levels]
  simp [selected, selectedFirst, urltest, urltest']
  rfl

theorem collect_soloAnswers (entry : Option UrlTestEntry)
    (memory : String → Option UrltestMemory) (tsUs : Int) :
    (soloAnswers entry).collect .active memory tsUs =
        ((noteUrltest memory "node-a" entry tsUs).1,
          [soloRow tsUs entry (noteUrltest memory "node-a" entry tsUs).2]) ∧
      (soloAnswers entry).reads tsUs = [⟨"node-a", tsUs, entry, true⟩] := by
  have reads : (soloAnswers entry).reads tsUs = [⟨"node-a", tsUs, entry, true⟩] := by
    rw [ProxyAnswers.reads, readGroup_solo]
    simp [GroupView.reads, List.lookup_cons, soloNode]
  have noted : noteReads memory [⟨"node-a", tsUs, entry, true⟩] =
      ((noteUrltest memory "node-a" entry tsUs).1,
        [(⟨"node-a", tsUs, entry, true⟩, (noteUrltest memory "node-a" entry tsUs).2)]) := rfl
  have probed : probeEndpoints (soloAnswers entry) = [("1.1.1.1:443", ⟨true, none⟩)] := rfl
  refine ⟨?_, reads⟩
  unfold ProxyAnswers.reads at reads
  unfold ProxyAnswers.collect
  dsimp only
  rw [reads, noted, probed, readGroup_solo]
  exact Prod.ext rfl (List.mergeSort_singleton _)

def stallAcrossPause : List WatchStep :=
  [.tick 1000000 (soloAnswers (some ⟨0, 200⟩)), .deliver, .tick 2000000 (soloAnswers none),
    .deliver, .pause 3000000, .resume 200000000, .tick 201000000 (soloAnswers none), .deliver]

theorem step_tick_solo {d : ProxyWatch} {tsUs : Int} (entry : Option UrlTestEntry)
    (active : d.tier = .active) (observing : d.observing = true) (later : d.clockUs < tsUs) :
    d.step (.tick tsUs (soloAnswers entry)) = some { d with
      memory := (noteUrltest d.memory "node-a" entry tsUs).1
      pending := d.pending ++ [soloRow tsUs entry (noteUrltest d.memory "node-a" entry tsUs).2]
      clockUs := tsUs
      reads := d.reads ++ [⟨"node-a", tsUs, entry, true⟩] } := by
  obtain ⟨collected, reads⟩ := collect_soloAnswers entry d.memory tsUs
  simp only [ProxyWatch.step]
  rw [if_pos ⟨observing, later⟩, active, collected, reads]

theorem run_stallAcrossPause : ∃ d,
    Runs.runSteps ProxyWatch.step (.start .active true) stallAcrossPause = some d ∧
      d.window.buf.items = [.proxy (soloRow 201000000 none (some 2000000))] ∧
      d.resumedUs = some 200000000 := by
  refine Runs.exists_runSteps_cons (step_tick_solo _ rfl rfl (by decide)) ?_
  refine Runs.exists_runSteps_cons rfl (Runs.exists_runSteps_cons (step_tick_solo _ rfl rfl (by decide)) ?_)
  refine Runs.exists_runSteps_cons rfl (Runs.exists_runSteps_cons rfl (Runs.exists_runSteps_cons rfl ?_))
  refine Runs.exists_runSteps_cons (step_tick_solo _ rfl rfl (by decide)) (Runs.exists_runSteps_cons rfl ?_)
  exact ⟨_, rfl, rfl, rfl⟩

theorem firing_stallAcrossPause {w : RecentWindow}
    (items : w.buf.items = [.proxy (soloRow 201000000 none (some 2000000))]) :
    dialStallReading w = some (201000000, ⟨"node-a", "1.1.1.1:443", .ok, some 2000000⟩) ∧
      ((endpointDialStall 60000000000).eval w).isSome := by
  have rows : w.recentProxy dialStallScan = [soloRow 201000000 none (some 2000000)] := by
    rw [RecentWindow.recentProxy, RecentWindow.newestFirst, items]
    rfl
  have read : dialStallReading w =
      some (201000000, ⟨"node-a", "1.1.1.1:443", .ok, some 2000000⟩) := by
    rw [dialStallReading, rows]
    rfl
  exact ⟨read, endpointDialStall_isSome_iff.mpr ⟨_, _, _, read, rfl, rfl, by decide⟩⟩

/-- A node read empty a second before a pause, and once a second after it. -/
theorem pause_counted_as_absence : ∃ d,
    Runs.runSteps ProxyWatch.step (.start .active true) stallAcrossPause = some d ∧
      dialStallReading d.window =
        some (201000000, ⟨"node-a", "1.1.1.1:443", .ok, some 2000000⟩) ∧
      ((endpointDialStall 60000000000).eval d.window).isSome ∧
      ¬ ObservedAbsence (readsBy d.reads 201000000) d.resumedUs
        (dialStallThresholdUs 60000000000) "node-a" 2000000 201000000 := by
  obtain ⟨d, ran, items, resumed⟩ := run_stallAcrossPause
  obtain ⟨read, fires⟩ := firing_stallAcrossPause items
  refine ⟨d, ran, read, fires, fun absence => ?_⟩
  have observed := absence.observed
  rw [resumed] at observed
  exact absurd observed (by decide)

theorem dial_stall_observed_iff_acrossPause : ∃ d,
    Runs.runSteps ProxyWatch.step (.start .active true) stallAcrossPause = some d ∧
      ∃ tsUs test sinceUs, dialStallReading d.window = some (tsUs, test) ∧
        test.absentSinceUs = some sinceUs ∧
        (ObservedAbsence (readsBy d.reads tsUs) d.resumedUs (dialStallThresholdUs 60000000000)
            test.node sinceUs tsUs ↔
          AbsenceJudged (readsBy d.reads tsUs) d.resumedUs (dialStallThresholdUs 60000000000)
            test.node tsUs) := by
  obtain ⟨d, ran, items, -⟩ := run_stallAcrossPause
  exact ⟨d, ran, dial_stall_observed_iff ran (firing_stallAcrossPause items).2⟩

end NetObserver
