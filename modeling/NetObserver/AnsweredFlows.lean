import NetObserver.FlowViews

/-! What the groups of the flow table add up to, read back off the cells of the answer. -/

namespace NetObserver

open Machine

/-- A number that does not fit is not read. -/
theorem readU64_repr (n : Nat) : readU64 n.repr = if n ≤ u64Max then some n else none := by
  have decimal : ∀ c ∈ Nat.toDigits 10 n, c.isDigit = true :=
    fun c mem => Nat.isDigit_of_mem_toDigits (by omega) (by omega) mem
  have unsigned : (Nat.toDigits 10 n).head? ≠ some '+' := by
    intro plus
    have digit := decimal _ (List.mem_of_head? plus)
    cases digit
  unfold readU64 StdText.parseUnsigned
  rw [Nat.toList_repr]
  dsimp only
  rw [if_neg unsigned, if_pos ⟨Nat.toDigits_ne_nil, List.all_eq_true.mpr decimal⟩,
    Nat.ofDigitChars_ten_toDigits]

namespace FlowFigure

def ofGroup : FlowFigure → AnsweredGroup → Option Nat
  | count => AnsweredGroup.count
  | upload => AnsweredGroup.upload
  | download => AnsweredGroup.download

/-- The figure of a group as it is read off its cell. -/
def read (figure : FlowFigure) (a : AnsweredGroup) : Nat :=
  match figure.ofGroup a with
  | some n => if n ≤ u64Max then n else 0
  | none => 0

theorem read_of_fits {figure : FlowFigure} {a : AnsweredGroup}
    (fits : ∀ n ∈ figure.ofGroup a, n ≤ u64Max) : figure.read a = (figure.ofGroup a).getD 0 := by
  unfold read
  cases told : figure.ofGroup a with
  | none => rfl
  | some n => exact if_pos (fits n told)

theorem read_le (figure : FlowFigure) (a : AnsweredGroup) : figure.read a ≤ u64Max := by
  unfold read
  split
  next =>
    split
    next fits => exact fits
    next => exact Nat.zero_le _
  next => exact Nat.zero_le _

end FlowFigure

namespace AnsweredGroup

/-- The answered rows as a table. -/
def table (groupBy : ConnectionsGroupBy) (groups : List AnsweredGroup) : QueryTable :=
  ⟨groupBy.columns, groups.map (cells groupBy)⟩

section

variable {groupBy : ConnectionsGroupBy} {groups : List AnsweredGroup} (a : AnsweredGroup)

theorem cellOr_key : (table groupBy groups).cellOr "key" (a.cells groupBy) = a.key.getD "" := by
  cases groupBy <;> rfl

theorem cellOr_iface :
    (table groupBy groups).cellOr "iface" (a.cells groupBy) = a.iface.getD "" := by
  cases groupBy <;> rfl

theorem cellOr_figure (figure : FlowFigure) :
    (table groupBy groups).cellOr figure.column (a.cells groupBy) =
      ((figure.ofGroup a).map Nat.repr).getD "" := by
  cases figure <;> cases groupBy <;> rfl

theorem figureOf_cells_read (figure : FlowFigure) :
    (table groupBy groups).figureOf figure.column (a.cells groupBy) = figure.read a := by
  rw [QueryTable.figureOf, cellOr_figure, FlowFigure.read]
  cases figure.ofGroup a with
  | none => rfl
  | some n =>
    rw [Option.map_some, Option.getD_some, readU64_repr]
    dsimp only
    split <;> rfl

theorem figureOf_cells (figure : FlowFigure) (fits : ∀ n ∈ figure.ofGroup a, n ≤ u64Max) :
    (table groupBy groups).figureOf figure.column (a.cells groupBy) =
      (figure.ofGroup a).getD 0 :=
  (figureOf_cells_read a figure).trans (FlowFigure.read_of_fits fits)

theorem total_table {figure : FlowFigure}
    (fits : ∀ a ∈ groups, ∀ n ∈ figure.ofGroup a, n ≤ u64Max) :
    (table groupBy groups).total figure.column =
      (groups.map fun a => (figure.ofGroup a).getD 0).sum := by
  unfold QueryTable.total
  change ((groups.map (cells groupBy)).map _).sum = _
  rw [List.map_map]
  exact congrArg List.sum (List.map_congr_left fun a mem => figureOf_cells a figure (fits a mem))

theorem scopeOf_cells :
    (table groupBy groups).scopeOf (a.cells groupBy) = a.scope.getD .external := by
  have cell : (table groupBy groups).cellOr "scope" (a.cells groupBy) =
      (a.scope.map ConnectionScope.asStr).getD "" := by
    cases groupBy <;> rfl
  rw [QueryTable.scopeOf, cell]
  cases a.scope with
  | none => rfl
  | some scope => cases scope <;> rfl

theorem isMarker_cells :
    (table groupBy groups).isMarker (a.cells groupBy) = (a.key.getD "").isEmpty := by
  have key : (groupBy.columns.idxOf? "key").isSome = true := by
    cases groupBy <;> rfl
  rw [QueryTable.isMarker, cellOr_key, table, key, Bool.true_and]

end

end AnsweredGroup

section

variable {groupBy : ConnectionsGroupBy} {tick : List ConnectionSampleRow} {figure : FlowFigure}

theorem answeredGroups_perm (groupBy : ConnectionsGroupBy) (tick : List ConnectionSampleRow) :
    (answeredGroups groupBy tick).Perm
      (((Grouped.groupsOf groupBy.groupKey (tick.filterMap ConnectionSampleRow.flow)).map
          AnsweredGroup.ofGroup) ++
        (tick.filter fun r => r.row.isNone).map AnsweredGroup.marker) :=
  List.mergeSort_perm _ _

theorem FlowFigure.ofGroup_ofGroup
    (group : ConnectionsGroupBy.GroupKey × List TickFlow) :
    figure.ofGroup (AnsweredGroup.ofGroup group) =
      some (group.2.map fun f => figure.ofRow f.row).sum := by
  cases figure <;> rfl

theorem FlowFigure.ofGroup_marker (r : ConnectionSampleRow) :
    figure.ofGroup (AnsweredGroup.marker r) = none := by
  cases figure <;> rfl

theorem map_row_flows (tick : List ConnectionSampleRow) :
    (tick.filterMap ConnectionSampleRow.flow).map TickFlow.row =
      tick.filterMap ConnectionSampleRow.row := by
  rw [List.map_filterMap]
  refine List.filterMap_congr fun r _ => ?_
  rw [ConnectionSampleRow.flow]
  cases r.row <;> rfl

/-- The group of a flow. -/
def TickFlow.groupIn (groupBy : ConnectionsGroupBy) (flows : List TickFlow) (f : TickFlow) :
    AnsweredGroup :=
  AnsweredGroup.ofGroup
    (groupBy.groupKey f, flows.filter fun other => groupBy.groupKey other = groupBy.groupKey f)

/-- What some of the groups add up to is what the flows in them do. -/
theorem sum_answeredGroups (q : AnsweredGroup → Bool)
    (markers : ∀ r, q (AnsweredGroup.marker r) = false) :
    (((answeredGroups groupBy tick).filter q).map fun a => (figure.ofGroup a).getD 0).sum =
      (((tick.filterMap ConnectionSampleRow.flow).filter fun f =>
        q (f.groupIn groupBy (tick.filterMap ConnectionSampleRow.flow))).map fun f =>
          figure.ofRow f.row).sum := by
  have answered := ((answeredGroups_perm groupBy tick).filter q).map
    fun a => (figure.ofGroup a).getD 0
  have none_ : ((tick.filter fun r => r.row.isNone).map AnsweredGroup.marker).filter q = [] := by
    rw [List.filter_map, List.map_eq_nil_iff]
    refine List.filter_eq_nil_iff.mpr fun r _ => ?_
    rw [Function.comp_apply, markers]
    exact Bool.false_ne_true
  have each : (fun a => (figure.ofGroup a).getD 0) ∘ AnsweredGroup.ofGroup =
      fun group => (group.2.map fun f => figure.ofRow f.row).sum := by
    funext group
    rw [Function.comp_apply, FlowFigure.ofGroup_ofGroup, Option.getD_some]
  rw [answered.sum_eq, List.filter_append, none_, List.append_nil, List.filter_map, List.map_map,
    each]
  exact Grouped.sum_groupsOf (fun f : TickFlow => figure.ofRow f.row)
    (q ∘ AnsweredGroup.ofGroup) groupBy.groupKey (tick.filterMap ConnectionSampleRow.flow)

theorem answered_cases {a : AnsweredGroup} (mem : a ∈ answeredGroups groupBy tick) :
    (∃ group, a = AnsweredGroup.ofGroup group) ∨ ∃ r, a = AnsweredGroup.marker r := by
  rcases List.mem_append.mp ((answeredGroups_perm groupBy tick).mem_iff.mp mem) with
    grouped | marked
  · obtain ⟨group, _, rfl⟩ := List.mem_map.mp grouped
    exact .inl ⟨group, rfl⟩
  · obtain ⟨r, _, rfl⟩ := List.mem_map.mp marked
    exact .inr ⟨r, rfl⟩

/-- A row without flows adds nothing: only what is picked of the groups matters. -/
theorem sum_picked (figure : FlowFigure) {p q : AnsweredGroup → Bool}
    (agree : ∀ a ∈ answeredGroups groupBy tick, a.scope ≠ none → p a = q a) :
    (((answeredGroups groupBy tick).filter p).map fun a => (figure.ofGroup a).getD 0).sum =
      (((answeredGroups groupBy tick).filter q).map fun a => (figure.ofGroup a).getD 0).sum := by
  rw [Grouped.sum_filter, Grouped.sum_filter]
  refine congrArg List.sum (List.map_congr_left fun a mem => ?_)
  rcases answered_cases mem with ⟨group, rfl⟩ | ⟨r, rfl⟩
  · rw [agree _ mem (Option.some_ne_none _)]
  · rw [FlowFigure.ofGroup_marker, Option.getD_none, ite_self, ite_self]

/-- What the groups of some scopes add up to is what the flows of these scopes do. -/
theorem sum_scopes (groupBy : ConnectionsGroupBy) (tick : List ConnectionSampleRow)
    (figure : FlowFigure) (p : ConnectionScope → Bool) :
    (((answeredGroups groupBy tick).filter fun a => a.scope.any p).map fun a =>
        (figure.ofGroup a).getD 0).sum =
      figure.ofRows ((tick.filterMap ConnectionSampleRow.row).filter fun r => p r.scope) := by
  rw [sum_answeredGroups (fun a => a.scope.any p) fun _ => rfl, ← map_row_flows,
    FlowFigure.ofRows, List.filter_map, List.map_map]
  rfl

theorem sum_answeredGroups_all (groupBy : ConnectionsGroupBy) (tick : List ConnectionSampleRow)
    (figure : FlowFigure) :
    ((answeredGroups groupBy tick).map fun a => (figure.ofGroup a).getD 0).sum =
      figure.ofRows (tick.filterMap ConnectionSampleRow.row) := by
  have sums : (((answeredGroups groupBy tick).filter fun a => a.scope.any fun _ => true).map
      fun a => (figure.ofGroup a).getD 0).sum = figure.ofRows
        ((tick.filterMap ConnectionSampleRow.row).filter fun _ => true) :=
    sum_scopes groupBy tick figure fun _ => true
  rw [List.filter_true, Grouped.sum_filter] at sums
  rw [← sums]
  refine congrArg List.sum (List.map_congr_left fun a mem => ?_)
  rcases answered_cases mem with ⟨group, rfl⟩ | ⟨r, rfl⟩
  · rfl
  · rw [FlowFigure.ofGroup_marker]
    rfl

theorem FlowFigure.le_of_answered {a : AnsweredGroup} (mem : a ∈ answeredGroups groupBy tick)
    {n : Nat} (told : n ∈ figure.ofGroup a) :
    n ≤ figure.ofRows (tick.filterMap ConnectionSampleRow.row) := by
  rw [← sum_answeredGroups_all groupBy tick figure]
  refine List.le_sum_of_mem (List.mem_map.mpr ⟨a, mem, ?_⟩)
  rw [Option.mem_def.mp told, Option.getD_some]

theorem mem_answeredGroups {a : AnsweredGroup} : a ∈ answeredGroups groupBy tick ↔
    (∃ f ∈ tick.filterMap ConnectionSampleRow.flow,
      a = f.groupIn groupBy (tick.filterMap ConnectionSampleRow.flow)) ∨
    ∃ r ∈ tick, r.row = none ∧ a = AnsweredGroup.marker r := by
  rw [(answeredGroups_perm groupBy tick).mem_iff, List.mem_append, List.mem_map, List.mem_map]
  refine or_congr ?_ ?_
  · constructor
    · rintro ⟨group, mem, rfl⟩
      obtain ⟨f, held, rfl⟩ := Grouped.mem_groupsOf.mp mem
      exact ⟨f, held, rfl⟩
    · rintro ⟨f, held, rfl⟩
      exact ⟨_, Grouped.mem_groupsOf.mpr ⟨f, held, rfl⟩, rfl⟩
  · constructor
    · rintro ⟨r, mem, rfl⟩
      obtain ⟨held, none_⟩ := List.mem_filter.mp mem
      exact ⟨r, held, Option.isNone_iff_eq_none.mp none_, rfl⟩
    · rintro ⟨r, held, none_, rfl⟩
      exact ⟨r, List.mem_filter.mpr ⟨held, Option.isNone_iff_eq_none.mpr none_⟩, rfl⟩

/-- No group of flows has an empty key: it would read as a tick that listed nothing. -/
theorem keyOf_ne_empty (groupBy : ConnectionsGroupBy) {r : ConnectionRow} (named : r.Named) :
    groupBy.keyOf r ≠ "" := by
  have host : r.host ≠ some "" := named r.host (by simp)
  have dstIp : r.dstIp ≠ some "" := named r.dstIp (by simp)
  have process : r.process ≠ some "" := named r.process (by simp)
  have first (a b : Option String) (one : a ≠ some "") (other : b ≠ some "") :
      (a <|> b).getD "-" ≠ "" := by
    rcases a with _ | a
    · rcases b with _ | b
      · decide
      · exact fun empty => other (congrArg some empty)
    · exact fun empty => one (congrArg some empty)
  cases groupBy with
  | host => exact first _ _ host dstIp
  | processHost => exact first _ _ host dstIp
  | ip => exact first _ _ dstIp host
  | process =>
    intro empty
    change r.process.getD "-" = "" at empty
    cases known : r.process with
    | none =>
      rw [known] at empty
      exact absurd empty (by decide)
    | some name =>
      rw [known] at empty
      exact process (known.trans (congrArg some empty))
  | ipPort =>
    intro empty
    have text := congrArg String.toList empty
    unfold ConnectionsGroupBy.keyOf at text
    simp at text

theorem answered_parts {a : AnsweredGroup}
    (named : ∀ r ∈ tick.filterMap ConnectionSampleRow.row, r.Named)
    (mem : a ∈ answeredGroups groupBy tick) :
    (a.key = none ∧ a.scope = none) ∨
      ∃ key scope, a.key = some key ∧ key ≠ "" ∧ a.scope = some scope := by
  rcases mem_answeredGroups.mp mem with ⟨f, held, rfl⟩ | ⟨r, _, _, rfl⟩
  · refine .inr ⟨groupBy.keyOf f.row, f.row.scope, rfl, keyOf_ne_empty groupBy ?_, rfl⟩
    refine named f.row ?_
    rw [← map_row_flows]
    exact List.mem_map_of_mem held
  · exact .inl ⟨rfl, rfl⟩

end

namespace ConnectionsSample

variable {cs : ConnectionsSample} {t : SampleStore}

theorem mem_tickRows {r : ConnectionSampleRow} (mem : r ∈ cs.tickRows) :
    r.tsUs = cs.tsUs ∧ r.verdict = cs.verdict ∧ ∀ row ∈ r.row, row ∈ cs.rows := by
  unfold tickRows at mem
  split at mem
  next =>
    rw [List.mem_singleton.mp mem]
    exact ⟨rfl, rfl, fun _ told => nomatch told⟩
  next =>
    obtain ⟨row, held, rfl⟩ := List.mem_map.mp mem
    exact ⟨rfl, rfl, fun _ told => Option.some.inj told ▸ held⟩

theorem tickRows_ne_nil (cs : ConnectionsSample) : cs.tickRows ≠ [] := by
  unfold tickRows
  split
  next => exact List.cons_ne_nil _ _
  next some_ =>
    intro none_
    rw [List.map_eq_nil_iff] at none_
    exact some_ (List.isEmpty_iff.mpr none_)

theorem rows_tickRows (cs : ConnectionsSample) :
    cs.tickRows.filterMap ConnectionSampleRow.row = cs.rows := by
  unfold tickRows
  split
  next none_ => exact (List.isEmpty_iff.mp none_).symm
  next =>
    rw [List.filterMap_map]
    exact List.filterMap_some

/-- What was written last is the newest tick. -/
theorem connectionTick_written (older : ∀ r ∈ t.db.connectionSample, r.tsUs < cs.tsUs) :
    connectionTick (t.written (.connections cs)).db.connectionSample = cs.tickRows := by
  have stored : (t.written (.connections cs)).db.connectionSample =
      t.db.connectionSample ++ cs.tickRows := applied_rows cs.tickRows t
  obtain ⟨first, rest, some_⟩ := List.exists_cons_of_ne_nil cs.tickRows_ne_nil
  have now : first.tsUs = cs.tsUs := (mem_tickRows (some_ ▸ List.mem_cons_self)).1
  have newest : ((t.db.connectionSample ++ cs.tickRows).map ConnectionSampleRow.tsUs).max? =
      some cs.tsUs := by
    refine List.max?_eq_some_iff.mpr ⟨?_, fun time mem => ?_⟩
    · refine List.mem_map.mpr ⟨first, List.mem_append_right _ ?_, now⟩
      rw [some_]
      exact List.mem_cons_self
    · obtain ⟨r, held, rfl⟩ := List.mem_map.mp mem
      rcases List.mem_append.mp held with earlier | late
      · exact Int.le_of_lt (older r earlier)
      · exact Int.le_of_eq (mem_tickRows late).1
  have before : t.db.connectionSample.filter (fun r => r.tsUs = cs.tsUs) = [] := by
    refine List.filter_eq_nil_iff.mpr fun r held same => ?_
    have earlier := older r held
    have now := of_decide_eq_true same
    omega
  have all : cs.tickRows.filter (fun r => r.tsUs = cs.tsUs) = cs.tickRows :=
    List.filter_eq_self.mpr fun r held => decide_eq_true (mem_tickRows held).1
  rw [stored, connectionTick, newest]
  dsimp only
  rw [List.filter_append, before, all, List.nil_append]

/-- The answer over a record whose newest tick was just written. -/
theorem connectionsSql_written (groupBy : ConnectionsGroupBy)
    (older : ∀ r ∈ t.db.connectionSample, r.tsUs < cs.tsUs) :
    connectionsSql groupBy (t.written (.connections cs)).db.connectionSample =
      AnsweredGroup.table groupBy (answeredGroups groupBy cs.tickRows) := by
  rw [connectionsSql, connectionTick_written older]
  rfl

end ConnectionsSample

end NetObserver
