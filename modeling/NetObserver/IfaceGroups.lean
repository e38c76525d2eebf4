import NetObserver.FlowAccounts

/-! The flows of a group and the interface that the daemon answers for it: it groups by another
fact, and tells an interface only when all the flows of the group have that one. -/

namespace NetObserver

open Machine

/-- A row of a stored tick: its names are not empty, and it stands for a flow at least. -/
def ConnectionRow.Recorded (r : ConnectionRow) : Prop := r.Named ∧ 1 ≤ r.count

namespace ConnectionsGroupBy

/-- Whether two rows of a tick are answered in one group. -/
def Together (groupBy : ConnectionsGroupBy) (r r' : ConnectionRow) : Prop :=
  groupBy.keyOf r = groupBy.keyOf r' ∧ (groupBy = processHost → r.process = r'.process) ∧
    r.scope = r'.scope

end ConnectionsGroupBy

/-- The rows of a scope that left through an interface, or of which none is known. -/
def ConnectionsSample.ifaceRows (cs : ConnectionsSample) (scope : ConnectionScope)
    (iface : Option String) : List ConnectionRow :=
  cs.rows.filter fun r => r.scope == scope && r.iface == iface

/-- No group of the scope has a flow through the interface beside another flow; where the interface
has no name, none may be without one interface either, for that is what the cell reads then. -/
def ConnectionsSample.KeptApart (cs : ConnectionsSample) (scope : ConnectionScope)
    (groupBy : ConnectionsGroupBy) (iface : String) : Prop :=
  if iface = "" then
    ∀ r ∈ cs.rows, r.scope = scope → r.iface ≠ none ∧
      ∀ r' ∈ cs.rows, groupBy.Together r r' → r'.iface = r.iface
  else
    ∀ r ∈ cs.rows, r.scope = scope → r.iface = some iface →
      ∀ r' ∈ cs.rows, groupBy.Together r r' → r'.iface = some iface

/-- The common interface of a group is told exactly when every flow has it. -/
theorem commonIface_eq_some {flows : List TickFlow} {iface : String} :
    commonIface flows = some iface ↔ flows ≠ [] ∧ ∀ f ∈ flows, f.row.iface = some iface := by
  unfold commonIface
  dsimp only
  constructor
  · intro told
    split at told
    next one =>
      obtain ⟨mem, _⟩ := List.max?_eq_some_iff.mp told
      obtain ⟨single, all⟩ := one
      obtain ⟨name, only⟩ := List.length_eq_one_iff.mp single
      have same : ∀ other ∈ flows.filterMap fun f => f.row.iface, other = iface := by
        intro other held
        have here := List.mem_dedup.mpr mem
        have there := List.mem_dedup.mpr held
        rw [only, List.mem_singleton] at here there
        exact there.trans here.symm
      have known := List.filterMap_length_eq_length.mp all
      refine ⟨?_, fun f held => ?_⟩
      · rintro rfl
        cases mem
      · obtain ⟨other, some_⟩ := Option.isSome_iff_exists.mp (known f held)
        rw [some_, same other (List.mem_filterMap.mpr ⟨f, held, some_⟩)]
    next => cases told
  · rintro ⟨some_, all⟩
    have names : (flows.filterMap fun f => f.row.iface) = List.replicate flows.length iface := by
      refine List.eq_replicate_iff.mpr ⟨?_, fun name mem => ?_⟩
      · exact List.filterMap_length_eq_length.mpr fun f held => by rw [all f held]; rfl
      · obtain ⟨f, held, told⟩ := List.mem_filterMap.mp mem
        exact Option.some.inj (told.symm.trans (all f held))
    have long : flows.length ≠ 0 := fun none_ => some_ (List.length_eq_zero_iff.mp none_)
    rw [names, List.replicate_dedup long, if_pos ⟨rfl, List.length_replicate⟩]
    obtain ⟨n, length_⟩ := Nat.exists_eq_succ_of_ne_zero long
    refine List.max?_eq_some_iff.mpr ⟨?_, fun name mem => ?_⟩
    · rw [length_]
      exact List.mem_replicate.mpr ⟨Nat.succ_ne_zero n, rfl⟩
    · exact le_of_eq (List.eq_of_mem_replicate mem)

namespace ConnectionsSample

variable {cs : ConnectionsSample} {groupBy : ConnectionsGroupBy} {f f' : TickFlow}
  {scope : ConnectionScope} {iface : String}

/-- The flows of a tick as the query reads them. -/
def tickFlows (cs : ConnectionsSample) : List TickFlow :=
  cs.tickRows.filterMap ConnectionSampleRow.flow

/-- What the query answers as the interface of the group that a flow is in. -/
def commonOf (cs : ConnectionsSample) (groupBy : ConnectionsGroupBy) (f : TickFlow) :
    Option String :=
  (f.groupIn groupBy cs.tickFlows).iface

theorem map_row_tickFlows (cs : ConnectionsSample) : cs.tickFlows.map TickFlow.row = cs.rows := by
  rw [tickFlows, map_row_flows, rows_tickRows]

theorem groupKey_iff (mem : f ∈ cs.tickFlows) (mem' : f' ∈ cs.tickFlows) :
    groupBy.groupKey f' = groupBy.groupKey f ↔ groupBy.Together f.row f'.row := by
  obtain ⟨now, verdict, _⟩ := mem_flows mem
  obtain ⟨now', verdict', _⟩ := mem_flows mem'
  unfold ConnectionsGroupBy.groupKey ConnectionsGroupBy.Together
  rw [ConnectionsGroupBy.GroupKey.mk.injEq, now, now', verdict, verdict']
  constructor
  · rintro ⟨_, _, key, process, scope⟩
    refine ⟨key.symm, fun pair => ?_, scope.symm⟩
    rw [if_pos pair, if_pos pair] at process
    exact process.symm
  · rintro ⟨key, process, scope⟩
    refine ⟨rfl, rfl, key.symm, ?_, scope.symm⟩
    by_cases pair : groupBy = .processHost
    · rw [if_pos pair, if_pos pair, process pair]
    · rw [if_neg pair, if_neg pair]

theorem commonOf_eq_some (mem : f ∈ cs.tickFlows) : cs.commonOf groupBy f = some iface ↔
    ∀ r ∈ cs.rows, groupBy.Together f.row r → r.iface = some iface := by
  unfold commonOf TickFlow.groupIn AnsweredGroup.ofGroup
  dsimp only
  rw [commonIface_eq_some]
  constructor
  · rintro ⟨_, all⟩ r held together
    rw [← map_row_tickFlows] at held
    obtain ⟨f', mem', rfl⟩ := List.mem_map.mp held
    refine all f' (List.mem_filter.mpr ⟨mem', decide_eq_true ?_⟩)
    exact (groupKey_iff mem mem').mpr together
  · intro all
    refine ⟨List.ne_nil_of_mem (List.mem_filter.mpr ⟨mem, decide_eq_true rfl⟩), fun f' held => ?_⟩
    obtain ⟨mem', key⟩ := List.mem_filter.mp held
    refine all f'.row ?_ ((groupKey_iff mem mem').mp (of_decide_eq_true key))
    rw [← map_row_tickFlows]
    exact List.mem_map_of_mem mem'

theorem together_self (groupBy : ConnectionsGroupBy) (r : ConnectionRow) : groupBy.Together r r :=
  ⟨rfl, fun _ => rfl, rfl⟩

theorem iface_of_commonOf (mem : f ∈ cs.tickFlows) (told : cs.commonOf groupBy f = some iface) :
    f.row.iface = some iface :=
  (commonOf_eq_some mem).mp told f.row (mem_flows mem).2.2 (together_self groupBy f.row)

theorem commonOf_together (mem : f ∈ cs.tickFlows) (mem' : f' ∈ cs.tickFlows)
    (together : groupBy.Together f.row f'.row) : cs.commonOf groupBy f' = cs.commonOf groupBy f := by
  unfold commonOf TickFlow.groupIn
  rw [(groupKey_iff mem mem').mpr together]

theorem exists_flow {r : ConnectionRow} (held : r ∈ cs.rows) : ∃ f ∈ cs.tickFlows, f.row = r := by
  rw [← map_row_tickFlows] at held
  exact List.mem_map.mp held

/-- A cell with a name in it is the interface of all the flows of the group. -/
theorem commonOf_of_cell (named : iface ≠ "") (cell : (cs.commonOf groupBy f).getD "" = iface) :
    cs.commonOf groupBy f = some iface := by
  cases common : cs.commonOf groupBy f with
  | none =>
    rw [common] at cell
    exact absurd cell.symm named
  | some other =>
    rw [common] at cell
    rw [show other = iface from cell]

/-- The stored rows of an interface as flows of the tick. -/
theorem ofRows_ifaceRows (cs : ConnectionsSample) (figure : FlowFigure) (scope : ConnectionScope)
    (iface : Option String) :
    figure.ofRows (cs.ifaceRows scope iface) =
      ((cs.tickFlows.filter fun f => f.row.scope == scope && f.row.iface == iface).map fun f =>
        figure.ofRow f.row).sum := by
  rw [ifaceRows, ← map_row_tickFlows, List.filter_map, FlowFigure.ofRows, List.map_map]
  rfl

end ConnectionsSample

section

variable {groupBy : ConnectionsGroupBy} {groups : List AnsweredGroup} {cs : ConnectionsSample}
  {scope : ConnectionScope} {iface : String}

/-- Whether `--iface` keeps the group. -/
def AnsweredGroup.keptBy (iface : Option String) (a : AnsweredGroup) : Bool :=
  match iface with
  | none => true
  | some iface => (a.key.getD "").isEmpty || a.iface.getD "" == iface

theorem filterByIface_table (iface : Option String) :
    (AnsweredGroup.table groupBy groups).filterByIface iface =
      AnsweredGroup.table groupBy (groups.filter (AnsweredGroup.keptBy iface)) := by
  cases iface with
  | none =>
    have all : groups.filter (AnsweredGroup.keptBy none) = groups := List.filter_true groups
    rw [all]
    rfl
  | some iface =>
    have has : ((AnsweredGroup.table groupBy groups).columns.idxOf? "iface").isNone = false := by
      cases groupBy <;> rfl
    unfold QueryTable.filterByIface
    dsimp only
    rw [has]
    unfold AnsweredGroup.table
    refine congrArg (QueryTable.mk _) ?_
    change (groups.map (AnsweredGroup.cells groupBy)).filter _ = _
    rw [List.filter_map]
    refine congrArg (List.map _) (List.filter_congr fun a _ => ?_)
    have marker : (AnsweredGroup.table groupBy groups).isMarker (a.cells groupBy) = _ :=
      AnsweredGroup.isMarker_cells a
    have cell : (AnsweredGroup.table groupBy groups).cellOr "iface" (a.cells groupBy) = _ :=
      AnsweredGroup.cellOr_iface a
    unfold AnsweredGroup.table at marker cell
    rw [Function.comp_apply, marker, cell]
    rfl

/-- The groups that the command line keeps, out of a tick that has some. -/
def keptGroups (groupBy : ConnectionsGroupBy) (cs : ConnectionsSample) (iface : Option String)
    (scope : ConnectionScope) : List AnsweredGroup :=
  ((answeredGroups groupBy cs.tickRows).filter (AnsweredGroup.keptBy iface)).filter
    (AnsweredGroup.shownIn scope)

/-- What is picked of the groups of one scope adds up to what the flows in them do. -/
theorem sum_of_scope (named : ∀ r ∈ cs.rows, r.Named) (figure : FlowFigure)
    {p : AnsweredGroup → Bool} (pick : AnsweredGroup → Bool)
    (agree : ∀ a ∈ answeredGroups groupBy cs.tickRows, ∀ key s, a.key = some key →
      key.isEmpty = false → a.scope = some s → p a = (s == scope && pick a)) :
    (((answeredGroups groupBy cs.tickRows).filter p).map fun a =>
        (figure.ofGroup a).getD 0).sum =
      ((cs.tickFlows.filter fun f => f.row.scope == scope &&
        pick (f.groupIn groupBy cs.tickFlows)).map fun f => figure.ofRow f.row).sum := by
  have named' : ∀ r ∈ cs.tickRows.filterMap ConnectionSampleRow.row, r.Named := by
    rw [ConnectionsSample.rows_tickRows]
    exact named
  refine (sum_picked figure (q := fun a => a.scope.any (· == scope) && pick a)
    fun a mem known => ?_).trans ?_
  · rcases answered_parts named' mem with ⟨_, none_⟩ | ⟨key, s, told, some_, there⟩
    · exact absurd none_ known
    · have nonempty : key.isEmpty = false := by
        rw [← Bool.not_eq_true, String.isEmpty_iff]
        exact some_
      rw [agree a mem key s told nonempty there, there]
      rfl
  · exact sum_answeredGroups (fun a => a.scope.any (· == scope) && pick a) fun _ => rfl

end

section

variable {cs : ConnectionsSample} {groupBy : ConnectionsGroupBy} {scope : ConnectionScope}
  {iface : String} (recorded : ∀ r ∈ cs.rows, r.Recorded)

include recorded

/-- Where one choice of flows is part of the other, they count the same only if they are the same. -/
theorem counts_eq_iff {p q : TickFlow → Bool}
    (ordered : (∀ f ∈ cs.tickFlows, p f = true → q f = true) ∨
      ∀ f ∈ cs.tickFlows, q f = true → p f = true) :
    ((cs.tickFlows.filter p).map fun f => FlowFigure.count.ofRow f.row).sum =
        ((cs.tickFlows.filter q).map fun f => FlowFigure.count.ofRow f.row).sum ↔
      ∀ f ∈ cs.tickFlows, p f = q f := by
  have counts : ∀ f ∈ cs.tickFlows, 1 ≤ FlowFigure.count.ofRow f.row :=
    fun f mem => (recorded f.row (mem_flows mem).2.2).2
  constructor
  · intro same f mem
    rw [Bool.eq_iff_iff]
    rcases ordered with below | above
    · exact ⟨below f mem, (Grouped.sum_filter_eq_iff below counts).mp same f mem⟩
    · exact ⟨(Grouped.sum_filter_eq_iff above counts).mp same.symm f mem, above f mem⟩
  · intro same
    rw [List.filter_congr same]

theorem named_of_recorded : ∀ r ∈ cs.rows, r.Named := fun r held => (recorded r held).1

theorem sum_kept (figure : FlowFigure) :
    ((keptGroups groupBy cs (some iface) scope).map fun a => (figure.ofGroup a).getD 0).sum =
      ((cs.tickFlows.filter fun f => f.row.scope == scope &&
        (cs.commonOf groupBy f).getD "" == iface).map fun f => figure.ofRow f.row).sum := by
  rw [keptGroups, List.filter_filter]
  refine sum_of_scope (named_of_recorded recorded) figure (fun a => a.iface.getD "" == iface) ?_
  intro a _ key s told nonempty there
  rw [AnsweredGroup.shownIn, AnsweredGroup.keptBy, told, there, Option.getD_some, nonempty]
  rfl

omit recorded in
/-- With a name to ask for, the groups that read as it are those in which every flow has it. -/
theorem cells_iff_of_named (named : iface ≠ "") :
    (∀ f ∈ cs.tickFlows, (f.row.scope == scope && (cs.commonOf groupBy f).getD "" == iface) =
      (f.row.scope == scope && f.row.iface == some iface)) ↔
    ∀ r ∈ cs.rows, r.scope = scope → r.iface = some iface →
      ∀ r' ∈ cs.rows, groupBy.Together r r' → r'.iface = some iface := by
  constructor
  · intro same r held here told r' held' together
    obtain ⟨f, mem, rfl⟩ := ConnectionsSample.exists_flow held
    have read := same f mem
    rw [here, told, beq_self_eq_true, beq_self_eq_true, Bool.true_and, Bool.and_true,
      beq_iff_eq] at read
    have common := ConnectionsSample.commonOf_of_cell named read
    exact (ConnectionsSample.commonOf_eq_some mem).mp common r' held' together
  · intro apart f mem
    by_cases here : f.row.scope = scope
    · rw [here, beq_self_eq_true, Bool.true_and, Bool.true_and, Bool.eq_iff_iff, beq_iff_eq,
        beq_iff_eq]
      constructor
      · intro cell
        have common := ConnectionsSample.commonOf_of_cell named cell
        exact ConnectionsSample.iface_of_commonOf mem common
      · intro told
        have held := (mem_flows mem).2.2
        have common := (ConnectionsSample.commonOf_eq_some mem).mpr (apart f.row held here told)
        rw [common, Option.getD_some]
    · have other : (f.row.scope == scope) = false := beq_eq_false_iff_ne.mpr here
      rw [other, Bool.false_and, Bool.false_and]

omit recorded in
/-- Without a name to ask for, every group that is not of one named interface reads as it. -/
theorem cells_iff_of_unnamed :
    (∀ f ∈ cs.tickFlows, (f.row.scope == scope && (cs.commonOf groupBy f).getD "" == "") =
      (f.row.scope == scope && f.row.iface == some "")) ↔
    ∀ r ∈ cs.rows, r.scope = scope → r.iface ≠ none ∧
      ∀ r' ∈ cs.rows, groupBy.Together r r' → r'.iface = r.iface := by
  constructor
  · intro same r held here
    obtain ⟨f, mem, rfl⟩ := ConnectionsSample.exists_flow held
    have read : ∀ f' ∈ cs.tickFlows, f'.row.scope = scope →
        (cs.commonOf groupBy f').getD "" = "" → f'.row.iface = some "" := by
      intro f' mem' here' cell
      have told := same f' mem'
      rw [here', cell, beq_self_eq_true, beq_self_eq_true, Bool.true_and, Bool.true_and] at told
      exact eq_of_beq told.symm
    by_cases cell : (cs.commonOf groupBy f).getD "" = ""
    · refine ⟨?_, fun r' held' together => ?_⟩
      · rw [read f mem here cell]
        exact Option.some_ne_none _
      · obtain ⟨f', mem', rfl⟩ := ConnectionsSample.exists_flow held'
        have same_ := ConnectionsSample.commonOf_together mem mem' together
        rw [read f mem here cell,
          read f' mem' (together.2.2.symm.trans here) (by rw [same_]; exact cell)]
    · have common := ConnectionsSample.commonOf_of_cell cell rfl
      refine ⟨?_, fun r' held' together => ?_⟩
      · rw [ConnectionsSample.iface_of_commonOf mem common]
        exact Option.some_ne_none _
      · rw [ConnectionsSample.iface_of_commonOf mem common]
        exact (ConnectionsSample.commonOf_eq_some mem).mp common r' held' together
  · intro apart f mem
    by_cases here : f.row.scope = scope
    · obtain ⟨known, all⟩ := apart f.row (mem_flows mem).2.2 here
      obtain ⟨name, told⟩ := Option.ne_none_iff_exists'.mp known
      rw [told] at all
      have common := (ConnectionsSample.commonOf_eq_some mem).mpr all
      rw [common, told, Option.getD_some]
      rfl
    · have other : (f.row.scope == scope) = false := beq_eq_false_iff_ne.mpr here
      rw [other, Bool.false_and, Bool.false_and]

/-- The groups that read as an interface count its flows exactly when no group has one of these
flows beside another. -/
theorem kept_exact_iff :
    ((keptGroups groupBy cs (some iface) scope).map fun a => (FlowFigure.count.ofGroup a).getD 0).sum =
        FlowFigure.count.ofRows (cs.ifaceRows scope (some iface)) ↔
      cs.KeptApart scope groupBy iface := by
  rw [sum_kept recorded, ConnectionsSample.ofRows_ifaceRows]
  unfold ConnectionsSample.KeptApart
  by_cases unnamed : iface = ""
  · have within : ∀ f ∈ cs.tickFlows, (f.row.scope == scope && f.row.iface == some iface) = true →
        (f.row.scope == scope && (cs.commonOf groupBy f).getD "" == iface) = true := by
      intro f mem told
      obtain ⟨here, name⟩ := Bool.and_eq_true_iff.mp told
      rw [here, Bool.true_and, beq_iff_eq]
      cases common : cs.commonOf groupBy f with
      | none => exact unnamed.symm
      | some other =>
        have same := ConnectionsSample.iface_of_commonOf mem common
        exact Option.some.inj (same.symm.trans (eq_of_beq name))
    rw [if_pos unnamed, counts_eq_iff recorded (.inr within), unnamed]
    exact cells_iff_of_unnamed
  · have within : ∀ f ∈ cs.tickFlows,
        (f.row.scope == scope && (cs.commonOf groupBy f).getD "" == iface) = true →
          (f.row.scope == scope && f.row.iface == some iface) = true := by
      intro f mem told
      obtain ⟨here, cell⟩ := Bool.and_eq_true_iff.mp told
      have common := ConnectionsSample.commonOf_of_cell unnamed (eq_of_beq cell)
      rw [here, ConnectionsSample.iface_of_commonOf mem common, beq_self_eq_true]
      rfl
    rw [if_neg unnamed, counts_eq_iff recorded (.inl within)]
    exact cells_iff_of_named unnamed

end

end NetObserver
