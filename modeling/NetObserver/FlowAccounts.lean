import NetObserver.AnsweredFlows

/-! Every flow is counted once on its way from the proxy's answer to the screen. -/

namespace NetObserver

open Machine

/-- Counters next to each other: each ends with what was added under its index. -/
theorem foldl_update_satAdd {α ι : Type*} [DecidableEq ι] (index : α → ι) (f : α → Nat)
    (rows : List α) (start : ι → Nat) (i : ι)
    (fits : start i + ((rows.filter fun r => index r = i).map f).sum ≤ u64Max) :
    rows.foldl (fun counters r =>
        Function.update counters (index r) (satAddU64 (counters (index r)) (f r))) start i =
      start i + ((rows.filter fun r => index r = i).map f).sum := by
  induction rows generalizing start with
  | nil => rfl
  | cons r rows ih =>
    rw [List.foldl_cons]
    by_cases here : index r = i
    · rw [List.filter_cons, if_pos (decide_eq_true here), List.map_cons, List.sum_cons] at fits ⊢
      have added : satAddU64 (start i) (f r) = start i + f r := Nat.min_eq_left (by omega)
      have now : Function.update start (index r) (satAddU64 (start (index r)) (f r)) i =
          start i + f r := by
        rw [here, Function.update_self, added]
      rw [ih _ (by rw [now]; omega), now]
      omega
    · rw [List.filter_cons, if_neg (by simpa using here)] at fits ⊢
      have now : Function.update start (index r) (satAddU64 (start (index r)) (f r)) i = start i :=
        Function.update_of_ne (fun same => here same.symm) _ _
      rw [ih _ (by rw [now]; exact fits), now]

namespace AnsweredGroup

/-- Whether the command line shows the group when it keeps a scope. -/
def shownIn (keep : ConnectionScope) (a : AnsweredGroup) : Bool :=
  (a.key.getD "").isEmpty || a.scope.getD .external == keep

/-- The cells of a row behind `fold_by_scope`. -/
def cellsOfScope (groupBy : ConnectionsGroupBy) (a : AnsweredGroup) : List String :=
  [toString a.tsUs, a.verdict.token, a.key.getD ""] ++
    (if groupBy = .processHost then [a.process.getD ""] else []) ++
    [a.iface.getD "", (a.count.map Nat.repr).getD "", (a.upload.map Nat.repr).getD "",
      (a.download.map Nat.repr).getD "", a.hosts.getD ""]

def tableOfScope (groupBy : ConnectionsGroupBy) (groups : List AnsweredGroup) : QueryTable :=
  ⟨groupBy.columns.filter (· ≠ "scope"), groups.map (cellsOfScope groupBy)⟩

variable {groupBy : ConnectionsGroupBy} {groups groups' : List AnsweredGroup} (a : AnsweredGroup)

/-- Behind `fold_by_scope` every cell but the one that it drops is the one of the answer. -/
theorem cellOr_tableOfScope (groups groups' : List AnsweredGroup) :
    ∀ column ∈ ["ts_us", "verdict", "key", "iface", "count", "upload", "download", "hosts"],
      (tableOfScope groupBy groups').cellOr column (a.cellsOfScope groupBy) =
        (table groupBy groups).cellOr column (a.cells groupBy) := by
  simp only [List.forall_mem_cons, List.not_mem_nil, false_imp_iff, implies_true, and_true]
  cases groupBy <;> exact ⟨rfl, rfl, rfl, rfl, rfl, rfl, rfl, rfl⟩

theorem isKept_cells (keep : ConnectionScope) :
    (table groupBy groups).isKept keep (a.cells groupBy) = a.shownIn keep := by
  rw [QueryTable.isKept, isMarker_cells, scopeOf_cells, shownIn]

theorem foldByScope_table (keep : ConnectionScope) :
    ((table groupBy groups).foldByScope (some keep)).1 =
      tableOfScope groupBy (groups.filter (shownIn keep)) := by
  have kept : (groups.map (cells groupBy)).filter ((table groupBy groups).isKept keep) =
      (groups.filter (shownIn keep)).map (cells groupBy) := by
    rw [List.filter_map]
    refine congrArg (List.map (cells groupBy)) (List.filter_congr fun a _ => ?_)
    exact isKept_cells a keep
  unfold QueryTable.foldByScope tableOfScope
  dsimp only
  change QueryTable.mk _ (((groups.map (cells groupBy)).filter _).map _) = _
  rw [kept, List.map_map]
  cases groupBy <;> rfl

/-- What is hidden of a scope is what its groups count. -/
theorem hidden_table (keep scope : ConnectionScope)
    (fits : ∀ a ∈ groups, ∀ n ∈ a.count, n ≤ u64Max)
    (small : (groups.map fun a => a.count.getD 0).sum ≤ u64Max) :
    ((table groupBy groups).foldByScope (some keep)).2 scope =
      ((groups.filter fun a => !a.shownIn keep && a.scope.getD .external == scope).map
        fun a => a.count.getD 0).sum := by
  have rows : (((groups.map (cells groupBy)).filter fun row =>
        !(table groupBy groups).isKept keep row).filter fun row =>
          (table groupBy groups).scopeOf row = scope).map
            ((table groupBy groups).figureOf "count") =
      (groups.filter fun a => !a.shownIn keep && a.scope.getD .external == scope).map
        fun a => a.count.getD 0 := by
    rw [List.filter_filter, List.filter_map, List.map_map]
    have same : (groups.filter ((fun row => decide ((table groupBy groups).scopeOf row = scope) &&
          !(table groupBy groups).isKept keep row) ∘ cells groupBy)) =
        groups.filter fun a => !a.shownIn keep && a.scope.getD .external == scope := by
      refine List.filter_congr fun a _ => ?_
      rw [Function.comp_apply, isKept_cells, scopeOf_cells, Bool.and_comm]
      rfl
    rw [same]
    refine List.map_congr_left fun a mem => ?_
    exact figureOf_cells a .count (fits a (List.mem_filter.mp mem).1)
  have within : ((groups.filter fun a => !a.shownIn keep && a.scope.getD .external == scope).map
      fun a => a.count.getD 0).sum ≤ u64Max := by
    refine le_trans (List.Sublist.sum_le_sum ?_ fun _ _ => Nat.zero_le _) small
    exact List.filter_sublist.map _
  have counted := foldl_update_satAdd (table groupBy groups).scopeOf
    ((table groupBy groups).figureOf "count")
    ((groups.map (cells groupBy)).filter fun row => !(table groupBy groups).isKept keep row)
    (fun _ => 0) scope
  rw [rows, Nat.zero_add] at counted
  exact counted within

theorem figureOf_tableOfScope (figure : FlowFigure) :
    (tableOfScope groupBy groups).figureOf figure.column (a.cellsOfScope groupBy) =
      figure.read a := by
  have same : (tableOfScope groupBy groups).cellOr figure.column (a.cellsOfScope groupBy) =
      (table groupBy groups).cellOr figure.column (a.cells groupBy) :=
    cellOr_tableOfScope a groups groups figure.column (by cases figure <;> simp [FlowFigure.column])
  have read : (table groupBy groups).figureOf figure.column (a.cells groupBy) = _ :=
    figureOf_cells_read a figure
  rw [QueryTable.figureOf, same]
  exact read

theorem total_tableOfScope {figure : FlowFigure}
    (fits : ∀ a ∈ groups, ∀ n ∈ figure.ofGroup a, n ≤ u64Max) :
    (tableOfScope groupBy groups).total figure.column =
      (groups.map fun a => (figure.ofGroup a).getD 0).sum := by
  unfold QueryTable.total
  change ((groups.map (cellsOfScope groupBy)).map _).sum = _
  rw [List.map_map]
  refine congrArg List.sum (List.map_congr_left fun a mem => ?_)
  exact (figureOf_tableOfScope a figure).trans (FlowFigure.read_of_fits (fits a mem))

/-- What the window draws of a group. -/
theorem flowRow_tableOfScope (humanBytes : Nat → String) (outside : a.scope.getD .external = .external) :
    (tableOfScope groupBy groups').flowRow humanBytes (a.cellsOfScope groupBy) =
      (table groupBy groups).flowRow humanBytes (a.cells groupBy) := by
  have cells : ∀ column ∈ _, (tableOfScope groupBy groups').cellOr column
      (a.cellsOfScope groupBy) = (table groupBy groups).cellOr column (a.cells groupBy) :=
    cellOr_tableOfScope a groups groups'
  have scope : (tableOfScope groupBy groups').scopeOf (a.cellsOfScope groupBy) = .external := by
    cases groupBy <;> rfl
  unfold QueryTable.flowRow QueryTable.figureOf
  rw [scope, scopeOf_cells, outside, cells "key" (by simp), cells "count" (by simp),
    cells "upload" (by simp), cells "download" (by simp), cells "hosts" (by simp)]

end AnsweredGroup

/-- A table that has its columns is read, and every row with a key is drawn. -/
theorem tickRows_found (humanBytes : Nat → String) (table : QueryTable)
    (found : ∀ column ∈ ["ts_us", "verdict", "key", "count", "upload", "download", "hosts"],
      (table.columns.idxOf? column).isSome = true) :
    ∃ tick, ConnectionsTick.tickRows humanBytes table = .ok tick ∧
      tick.rows = (table.rows.filter fun row => !(table.cellOr "key" row).isEmpty).map
        (table.flowRow humanBytes) := by
  have at_ : ∀ column ∈ ["ts_us", "verdict", "key", "count", "upload", "download", "hosts"],
      ∃ i, columnIndex table column = .ok i := by
    intro column mem
    obtain ⟨i, there⟩ := Option.isSome_iff_exists.mp (found column mem)
    exact ⟨i, by rw [columnIndex, there]⟩
  simp only [List.forall_mem_cons, List.not_mem_nil, false_imp_iff, implies_true, and_true] at at_
  obtain ⟨⟨_, ts⟩, ⟨_, verdict⟩, ⟨_, key⟩, ⟨_, count⟩, ⟨_, upload⟩, ⟨_, download⟩, ⟨_, hosts⟩⟩ := at_
  unfold ConnectionsTick.tickRows
  simp only [ts, verdict, key, count, upload, download, hosts, bind, Except.bind]
  cases listed : table.rows with
  | nil => exact ⟨_, rfl, rfl⟩
  | cons first rest =>
    dsimp only
    split
    next none_ => exact ⟨_, rfl, (List.isEmpty_iff.mp none_).symm⟩
    next => exact ⟨_, rfl, rfl⟩

/-- What the box hides is what the internal flows and those of the segment add up to. -/
theorem foldl_hide (rows : List FlowRow) (m n : Nat)
    (fits : m + n + (rows.map FlowRow.count).sum ≤ u64Max) :
    (rows.filter fun row => !FlowRow.isShown true row).foldl FlowRow.hide (m, n) =
      (m + ((rows.filter fun r => r.scope == .internal).map FlowRow.count).sum,
        n + ((rows.filter fun r => r.scope == .lan).map FlowRow.count).sum) := by
  induction rows generalizing m n with
  | nil => rfl
  | cons r rows ih =>
    rw [List.map_cons, List.sum_cons] at fits
    simp only [List.filter_cons, FlowRow.isShown] at ih ⊢
    cases scope : r.scope with
    | internal =>
      have hides : FlowRow.hide (m, n) r = (m + r.count, n) := by
        unfold FlowRow.hide
        rw [scope]
        exact congrArg (·, n) (Nat.min_eq_left (by omega))
      have counted := ih (m + r.count) n (by omega)
      simpa [hides, Nat.add_assoc] using counted
    | lan =>
      have hides : FlowRow.hide (m, n) r = (m, n + r.count) := by
        unfold FlowRow.hide
        rw [scope]
        exact congrArg (m, ·) (Nat.min_eq_left (by omega))
      have counted := ih m (n + r.count) (by omega)
      simpa [hides, Nat.add_assoc] using counted
    | external =>
      have counted := ih m n (by omega)
      simpa using counted

theorem hiddenFlows_eq {rows : List FlowRow} (fits : (rows.map FlowRow.count).sum ≤ u64Max) :
    FlowRow.hiddenFlows rows true =
      (((rows.filter fun r => r.scope == .internal).map FlowRow.count).sum,
        ((rows.filter fun r => r.scope == .lan).map FlowRow.count).sum) := by
  have counted := foldl_hide rows 0 0 (by omega)
  rw [Nat.zero_add, Nat.zero_add] at counted
  exact counted

section

variable {groupBy : ConnectionsGroupBy} {groups : List AnsweredGroup} {humanBytes : Nat → String}

/-- What the window draws of a group. -/
def AnsweredGroup.flowRow (groupBy : ConnectionsGroupBy) (groups : List AnsweredGroup)
    (humanBytes : Nat → String) (a : AnsweredGroup) : FlowRow :=
  (table groupBy groups).flowRow humanBytes (a.cells groupBy)

/-- The window reads the whole answer. -/
theorem tickRows_table (groupBy : ConnectionsGroupBy) (groups : List AnsweredGroup)
    (humanBytes : Nat → String) :
    ∃ tick, ConnectionsTick.tickRows humanBytes (AnsweredGroup.table groupBy groups) = .ok tick ∧
      tick.rows = (groups.filter fun a => !(a.key.getD "").isEmpty).map
        (AnsweredGroup.flowRow groupBy groups humanBytes) := by
  obtain ⟨tick, read, rows⟩ := tickRows_found humanBytes
    (AnsweredGroup.table groupBy groups) (by
      simp only [List.forall_mem_cons, List.not_mem_nil, false_imp_iff, implies_true, and_true]
      cases groupBy <;> exact ⟨rfl, rfl, rfl, rfl, rfl, rfl, rfl⟩)
  refine ⟨tick, read, rows.trans ?_⟩
  change ((groups.map (AnsweredGroup.cells groupBy)).filter _).map _ = _
  rw [List.filter_map, List.map_map]
  refine congrArg (List.map _) (List.filter_congr fun a _ => ?_)
  rw [Function.comp_apply, AnsweredGroup.cellOr_key]

/-- What the command line shows of the external flows reads like the rows that the window lists. -/
theorem tickRows_tableOfScope (groupBy : ConnectionsGroupBy) (groups : List AnsweredGroup)
    (humanBytes : Nat → String) :
    ∃ shown, ConnectionsTick.tickRows humanBytes (AnsweredGroup.tableOfScope groupBy
        (groups.filter (AnsweredGroup.shownIn .external))) = .ok shown ∧
      shown.rows = (groups.filter fun a =>
        !(a.key.getD "").isEmpty && a.scope.getD .external == .external).map
          (AnsweredGroup.flowRow groupBy groups humanBytes) := by
  obtain ⟨shown, read, rows⟩ := tickRows_found humanBytes
    (AnsweredGroup.tableOfScope groupBy
      (groups.filter (AnsweredGroup.shownIn .external))) (by
      simp only [List.forall_mem_cons, List.not_mem_nil, false_imp_iff, implies_true, and_true]
      cases groupBy <;> exact ⟨rfl, rfl, rfl, rfl, rfl, rfl, rfl⟩)
  refine ⟨shown, read, rows.trans ?_⟩
  change (((groups.filter (AnsweredGroup.shownIn .external)).map
    (AnsweredGroup.cellsOfScope groupBy)).filter _).map _ = _
  rw [List.filter_map, List.map_map, List.filter_filter]
  have same : (groups.filter fun a => ((fun row => !((AnsweredGroup.tableOfScope groupBy
      (groups.filter (AnsweredGroup.shownIn .external))).cellOr "key" row).isEmpty) ∘
        AnsweredGroup.cellsOfScope groupBy) a && AnsweredGroup.shownIn .external a) =
      groups.filter fun a => !(a.key.getD "").isEmpty && a.scope.getD .external == .external := by
    refine List.filter_congr fun a _ => ?_
    rw [Function.comp_apply, AnsweredGroup.cellOr_tableOfScope a groups _ "key" (by simp),
      AnsweredGroup.cellOr_key, AnsweredGroup.shownIn]
    cases (a.key.getD "").isEmpty <;> rfl
  rw [same]
  refine List.map_congr_left fun a mem => ?_
  have outside := (Bool.and_eq_true_iff.mp (List.mem_filter.mp mem).2).2
  exact AnsweredGroup.flowRow_tableOfScope a humanBytes (eq_of_beq outside)

/-- The box and the command line hide the same flows. -/
theorem hiddenFlows_table (scope : ConnectionScope) (groups : List AnsweredGroup)
    (fits : ∀ a ∈ groups, ∀ n ∈ a.count, n ≤ u64Max)
    (small : (groups.map fun a => a.count.getD 0).sum ≤ u64Max) (inside : scope ≠ .external) :
    ((((groups.filter fun a => !(a.key.getD "").isEmpty).map
        (AnsweredGroup.flowRow groupBy groups humanBytes)).filter fun r => r.scope == scope).map
          FlowRow.count).sum =
      ((AnsweredGroup.table groupBy groups).foldByScope (some .external)).2 scope := by
  rw [AnsweredGroup.hidden_table .external scope fits small, List.filter_map, List.map_map,
    List.filter_filter]
  have scopes : ∀ a ∈ groups, (((fun r : FlowRow => r.scope == scope) ∘
      AnsweredGroup.flowRow groupBy groups humanBytes) a && !(a.key.getD "").isEmpty) =
        (!a.shownIn .external && a.scope.getD .external == scope) := by
    intro a _
    have told : (AnsweredGroup.flowRow groupBy groups humanBytes a).scope =
        a.scope.getD .external := AnsweredGroup.scopeOf_cells a
    rw [Function.comp_apply, told, AnsweredGroup.shownIn]
    by_cases here : a.scope.getD .external = scope
    · have other : (scope == ConnectionScope.external) = false := beq_eq_false_iff_ne.mpr inside
      rw [here, other, Bool.or_false, beq_self_eq_true, Bool.true_and, Bool.and_true]
    · have other : (a.scope.getD .external == scope) = false := beq_eq_false_iff_ne.mpr here
      rw [other, Bool.false_and, Bool.and_false]
  rw [List.filter_congr scopes]
  refine congrArg List.sum (List.map_congr_left fun a mem => ?_)
  exact AnsweredGroup.figureOf_cells a .count (fits a (List.mem_filter.mp mem).1)

/-- The window and the command line list the same rows, and count the same as hidden. -/
theorem readers_agree (groupBy : ConnectionsGroupBy) (humanBytes : Nat → String)
    (groups : List AnsweredGroup) (fits : ∀ a ∈ groups, ∀ n ∈ a.count, n ≤ u64Max)
    (small : (groups.map fun a => a.count.getD 0).sum ≤ u64Max) :
    ∃ tick shown,
      ConnectionsTick.tickRows humanBytes (AnsweredGroup.table groupBy groups) = .ok tick ∧
      ConnectionsTick.tickRows humanBytes
        ((AnsweredGroup.table groupBy groups).foldByScope (some .external)).1 = .ok shown ∧
      tick.rows.filter (FlowRow.isShown true) = shown.rows ∧
      FlowRow.hiddenFlows tick.rows true =
        (((AnsweredGroup.table groupBy groups).foldByScope (some .external)).2 .internal,
          ((AnsweredGroup.table groupBy groups).foldByScope (some .external)).2 .lan) := by
  obtain ⟨tick, read, rows⟩ := tickRows_table groupBy groups humanBytes
  obtain ⟨shown, read', rows'⟩ := tickRows_tableOfScope groupBy groups humanBytes
  refine ⟨tick, shown, read, ?_, ?_, ?_⟩
  · rw [AnsweredGroup.foldByScope_table]
    exact read'
  · rw [rows, rows', List.filter_map, List.filter_filter]
    refine congrArg (List.map _) (List.filter_congr fun a _ => ?_)
    have told : (AnsweredGroup.flowRow groupBy groups humanBytes a).scope =
        a.scope.getD .external := AnsweredGroup.scopeOf_cells a
    rw [Function.comp_apply, FlowRow.isShown, told, Bool.and_comm]
    rfl
  · have room : (tick.rows.map FlowRow.count).sum ≤ u64Max := by
      have counts : tick.rows.map FlowRow.count =
          (groups.filter fun a => !(a.key.getD "").isEmpty).map fun a => a.count.getD 0 := by
        rw [rows, List.map_map]
        refine List.map_congr_left fun a mem => ?_
        exact AnsweredGroup.figureOf_cells a .count (fits a (List.mem_filter.mp mem).1)
      rw [counts]
      refine le_trans (List.Sublist.sum_le_sum ?_ fun _ _ => Nat.zero_le _) small
      exact List.filter_sublist.map _
    rw [hiddenFlows_eq room, rows,
      hiddenFlows_table .internal groups fits small (by decide),
      hiddenFlows_table .lan groups fits small (by decide)]

end

section

variable {groupBy : ConnectionsGroupBy} {tick : List ConnectionSampleRow}
  {connections : Option (List LiveConnection)} {listeners : OwnListeners} {tsUs : Int}

/-- Of the groups with a scope a reader tells those it shows by the scope. -/
theorem hidden_groups (named : ∀ r ∈ tick.filterMap ConnectionSampleRow.row, r.Named)
    (keep scope : ConnectionScope) :
    ((answeredGroups groupBy tick).filter fun a =>
        !a.shownIn keep && a.scope.getD .external == scope) =
      (answeredGroups groupBy tick).filter fun a =>
        a.scope.any fun s => s == scope && s != keep := by
  refine List.filter_congr fun a mem => ?_
  rcases answered_parts named mem with ⟨key, none_⟩ | ⟨k, s, key, some_, there⟩
  · rw [AnsweredGroup.shownIn, key, none_]
    rfl
  · have nonempty : k.isEmpty = false := by
      rw [← Bool.not_eq_true, String.isEmpty_iff]
      exact some_
    rw [AnsweredGroup.shownIn, key, there, Option.getD_some, nonempty, Bool.false_or,
      Option.getD_some, Option.any_some, Bool.and_comm]
    rfl

theorem ofFlows_count (flows : List LiveConnection) : FlowFigure.count.ofFlows flows = flows.length := by
  simp [FlowFigure.ofFlows, FlowFigure.ofFlow]

/-- The parts of a row that tell it from the others. -/
def QueryTable.groupCells (table : QueryTable) (row : List String) :
    Option String × Option String × Option String :=
  (table.cell "key" row, table.cell "process" row, table.cell "scope" row)

theorem asStr_injective {s s' : ConnectionScope} (same : s.asStr = s'.asStr) : s = s' := by
  cases s <;> cases s' <;> first | rfl | exact absurd same (by decide)

theorem mem_flows {cs : ConnectionsSample} {f : TickFlow}
    (mem : f ∈ cs.tickRows.filterMap ConnectionSampleRow.flow) :
    f.tsUs = cs.tsUs ∧ f.verdict = cs.verdict ∧ f.row ∈ cs.rows := by
  obtain ⟨r, held, told⟩ := List.mem_filterMap.mp mem
  obtain ⟨now, verdict, listed⟩ := ConnectionsSample.mem_tickRows held
  obtain ⟨row, some_, rfl⟩ := Option.map_eq_some_iff.mp told
  exact ⟨now, verdict, listed row some_⟩

/-- Two groups of one tick with the same cells have the same key: a process with the dash for its
name would read as one without a name. -/
theorem groupKey_injective {cs : ConnectionsSample} (plain : ∀ r ∈ cs.rows, r.Plain)
    {f f' : TickFlow} (mem : f ∈ cs.tickRows.filterMap ConnectionSampleRow.flow)
    (mem' : f' ∈ cs.tickRows.filterMap ConnectionSampleRow.flow)
    (key : groupBy.keyOf f.row = groupBy.keyOf f'.row)
    (process : groupBy = .processHost →
      f.row.process.getD "-" = f'.row.process.getD "-")
    (scope : f.row.scope = f'.row.scope) : groupBy.groupKey f = groupBy.groupKey f' := by
  obtain ⟨now, verdict, held⟩ := mem_flows mem
  obtain ⟨now', verdict', held'⟩ := mem_flows mem'
  have dash : ∀ r ∈ cs.rows, r.process ≠ some "-" := fun r held =>
    (plain r held r.process (by simp)).2
  unfold ConnectionsGroupBy.groupKey
  rw [now, now', verdict, verdict', key, scope]
  congr 1
  by_cases pair : groupBy = .processHost
  · rw [if_pos pair, if_pos pair]
    have same := process pair
    cases one : f.row.process with
    | none =>
      cases other : f'.row.process with
      | none => rfl
      | some name' =>
        rw [one, other] at same
        exact absurd (other.trans (congrArg some same.symm)) (dash _ held')
    | some name =>
      cases other : f'.row.process with
      | none =>
        rw [one, other] at same
        exact absurd (one.trans (congrArg some same)) (dash _ held)
      | some name' =>
        rw [one, other] at same
        exact congrArg some same
  · rw [if_neg pair, if_neg pair]

/-- The same parts of a group that is not rendered yet. -/
def AnsweredGroup.texts (groupBy : ConnectionsGroupBy) (a : AnsweredGroup) :
    Option String × Option String × Option String :=
  (some (a.key.getD ""), if groupBy = .processHost then some (a.process.getD "") else none,
    some ((a.scope.map ConnectionScope.asStr).getD ""))

theorem groupCells_cells (groups : List AnsweredGroup) (a : AnsweredGroup) :
    (AnsweredGroup.table groupBy groups).groupCells (a.cells groupBy) = a.texts groupBy := by
  cases groupBy <;> rfl

theorem tickRows_nil {cs : ConnectionsSample} (none_ : cs.rows = []) :
    cs.tickRows = [⟨cs.tsUs, cs.verdict, none⟩] := by
  rw [ConnectionsSample.tickRows, none_]
  rfl

theorem markers_nil {cs : ConnectionsSample} (some_ : cs.rows ≠ []) :
    cs.tickRows.filter (fun r => r.row.isNone) = [] := by
  have full : cs.rows.isEmpty = false := by
    rw [← Bool.not_eq_true, List.isEmpty_iff]
    exact some_
  rw [ConnectionsSample.tickRows, full]
  refine List.filter_eq_nil_iff.mpr fun r mem => ?_
  obtain ⟨row, _, rfl⟩ := List.mem_map.mp mem
  exact Bool.false_ne_true

/-- The groups of a tick are told apart by their cells. -/
theorem answered_nodup {cs : ConnectionsSample} (plain : ∀ r ∈ cs.rows, r.Plain) :
    ((answeredGroups groupBy cs.tickRows).map (AnsweredGroup.texts groupBy)).Nodup := by
  rw [((answeredGroups_perm groupBy cs.tickRows).map (AnsweredGroup.texts groupBy)).nodup_iff]
  by_cases none_ : cs.rows = []
  · rw [tickRows_nil none_]
    exact List.nodup_singleton _
  · rw [markers_nil none_, List.map_nil, List.append_nil, List.map_map]
    refine List.Nodup.map_on ?_ (List.Nodup.of_map _ (Grouped.groupsOf_keys_nodup _ _))
    intro x mem y mem' same
    obtain ⟨f, held, rfl⟩ := Grouped.mem_groupsOf.mp mem
    obtain ⟨f', held', rfl⟩ := Grouped.mem_groupsOf.mp mem'
    have key : some (groupBy.keyOf f.row) = some (groupBy.keyOf f'.row) := congrArg Prod.fst same
    have scope : some f.row.scope.asStr = some f'.row.scope.asStr := congrArg (·.2.2) same
    have process : groupBy = .processHost →
        f.row.process.getD "-" = f'.row.process.getD "-" := by
      rintro rfl
      exact Option.some.inj (congrArg (·.2.1) same)
    have keys := groupKey_injective plain held held' (Option.some.inj key) process
      (asStr_injective (Option.some.inj scope))
    rw [keys]

/-- What the groups of one scope count that the command line shows. -/
theorem sum_shown (named : ∀ r ∈ tick.filterMap ConnectionSampleRow.row, r.Named)
    (keep : ConnectionScope) :
    (((answeredGroups groupBy tick).filter (AnsweredGroup.shownIn keep)).map fun a =>
        a.count.getD 0).sum =
      FlowFigure.count.ofRows ((tick.filterMap ConnectionSampleRow.row).filter fun r =>
        r.scope == keep) := by
  rw [← sum_scopes groupBy tick .count fun s => s == keep]
  refine sum_picked .count fun a mem known => ?_
  rcases answered_parts named mem with ⟨_, none_⟩ | ⟨k, s, key, some_, there⟩
  · exact absurd none_ known
  · have nonempty : k.isEmpty = false := by
      rw [← Bool.not_eq_true, String.isEmpty_iff]
      exact some_
    rw [AnsweredGroup.shownIn, key, there, Option.getD_some, nonempty, Bool.false_or]
    rfl

theorem scopes_cover (scopeOf : LiveConnection → ConnectionScope) (flows : List LiveConnection) :
    (flows.filter fun c => scopeOf c = .internal).length +
      (flows.filter fun c => scopeOf c = .lan).length +
        (flows.filter fun c => scopeOf c = .external).length = flows.length := by
  induction flows with
  | nil => rfl
  | cons c flows ih =>
    cases scope : scopeOf c <;> simp [scope] <;> omega

theorem FlowFigure.most_le (figure : FlowFigure) : figure.most ≤ u64Max := by
  cases figure <;> decide

/-- The figures of a tick as it is stored are those of the flows. -/
theorem built_figure (figure : FlowFigure)
    (fits : figure.ofFlows (connections.getD []) ≤ figure.most) :
    figure.ofRows (buildConnectionsSample tsUs connections listeners).rows =
      figure.ofFlows (connections.getD []) := by
  have all := buildConnectionsSample_figure tsUs listeners (fun _ => true) fits
  rw [List.filter_true, List.filter_true] at all
  exact all

theorem built_fits (figure : FlowFigure)
    (fits : figure.ofFlows (connections.getD []) ≤ figure.most) :
    ∀ a ∈ answeredGroups groupBy
        (buildConnectionsSample tsUs connections listeners).tickRows,
      ∀ n ∈ figure.ofGroup a, n ≤ u64Max := by
  intro a mem n told
  have below := FlowFigure.le_of_answered mem told
  rw [ConnectionsSample.rows_tickRows, built_figure figure fits] at below
  exact below.trans (fits.trans figure.most_le)

/-- The flows of some scopes, counted in the tick as it is stored. -/
theorem built_count (p : ConnectionScope → Bool)
    (fits : FlowFigure.count.ofFlows (connections.getD []) ≤ u32Max) :
    FlowFigure.count.ofRows
        ((buildConnectionsSample tsUs connections listeners).rows.filter fun r => p r.scope) =
      ((connections.getD []).filter fun c => p (listeners.classify c.dstIp)).length := by
  have counted : FlowFigure.count.ofFlows (connections.getD []) ≤ FlowFigure.count.most := fits
  rw [buildConnectionsSample_figure tsUs listeners p counted, ofFlows_count]

section

variable (plain : ∀ c ∈ connections.getD [], c.Plain)
  (fits : FlowFigure.count.ofFlows (connections.getD []) ≤ u32Max)

include plain fits

theorem shown_count (keep : ConnectionScope) :
    ((AnsweredGroup.table groupBy (answeredGroups groupBy
        (buildConnectionsSample tsUs connections listeners).tickRows)).foldByScope
          (some keep)).1.total "count" =
      ((connections.getD []).filter fun c => listeners.classify c.dstIp = keep).length := by
  have rows := ConnectionsSample.rows_tickRows (buildConnectionsSample tsUs connections listeners)
  have facts := buildConnectionsSample_rows tsUs listeners plain
  have total : (AnsweredGroup.tableOfScope groupBy ((answeredGroups groupBy
      (buildConnectionsSample tsUs connections listeners).tickRows).filter
        (AnsweredGroup.shownIn keep))).total FlowFigure.count.column = _ :=
    AnsweredGroup.total_tableOfScope fun a mem =>
      built_fits .count fits a (List.mem_filter.mp mem).1
  rw [AnsweredGroup.foldByScope_table]
  refine total.trans ((sum_shown ?_ keep).trans ?_)
  · rw [rows]
    exact fun r held => (facts r held).1.named
  · rw [rows, built_count (fun s => s == keep) fits]
    rfl

theorem hidden_count (keep scope : ConnectionScope) :
    ((AnsweredGroup.table groupBy (answeredGroups groupBy
        (buildConnectionsSample tsUs connections listeners).tickRows)).foldByScope
          (some keep)).2 scope =
      if scope = keep then 0
      else ((connections.getD []).filter fun c => listeners.classify c.dstIp = scope).length := by
  have rows := ConnectionsSample.rows_tickRows (buildConnectionsSample tsUs connections listeners)
  have facts := buildConnectionsSample_rows tsUs listeners plain
  have small : ((answeredGroups groupBy
      (buildConnectionsSample tsUs connections listeners).tickRows).map fun a =>
        a.count.getD 0).sum ≤ u64Max := by
    have all := sum_answeredGroups_all groupBy
      (buildConnectionsSample tsUs connections listeners).tickRows .count
    rw [rows, built_figure .count fits] at all
    exact all.trans_le (fits.trans (by decide))
  rw [AnsweredGroup.hidden_table keep scope (built_fits .count fits) small,
    hidden_groups (by rw [rows]; exact fun r held => (facts r held).1.named)]
  have counted := sum_scopes groupBy (buildConnectionsSample tsUs connections listeners).tickRows
    .count fun s => s == scope && s != keep
  rw [rows, built_count (fun s => s == scope && s != keep) fits] at counted
  refine counted.trans ?_
  by_cases same : scope = keep
  · rw [if_pos same, List.length_eq_zero_iff, List.filter_eq_nil_iff]
    intro c _
    simp [same]
  · rw [if_neg same]
    refine congrArg List.length (List.filter_congr fun c _ => ?_)
    by_cases here : listeners.classify c.dstIp = scope
    · simp [here, same]
    · simp [here]

end

end

/-- Each flow of the proxy's answer is counted once, by the groups and by both of their readers. -/
theorem flows_counted_once (groupBy : ConnectionsGroupBy) (humanBytes : Nat → String)
    (listeners : OwnListeners) (connections : Option (List LiveConnection)) (tsUs : Int)
    (t : SampleStore) (plain : ∀ c ∈ connections.getD [], c.Plain)
    (fits : ∀ figure : FlowFigure, figure.ofFlows (connections.getD []) ≤ figure.most)
    (older : ∀ r ∈ t.db.connectionSample, r.tsUs < tsUs) :
    let flows := connections.getD []
    let sample := buildConnectionsSample tsUs connections listeners
    let answer := connectionsSql groupBy (t.written (.connections sample)).db.connectionSample
    (∀ figure : FlowFigure, answer.total figure.column = figure.ofFlows flows) ∧
    (answer.rows.map answer.groupCells).Nodup ∧
    (flows = [] → answer.rows =
      [(AnsweredGroup.marker ⟨tsUs, sample.verdict, none⟩).cells groupBy]) ∧
    (∀ keep,
      (answer.foldByScope (some keep)).1.total "count" +
        (ConnectionScope.all.map (answer.foldByScope (some keep)).2).sum = flows.length ∧
      ∀ scope, (answer.foldByScope (some keep)).2 scope =
        if scope = keep then 0
        else (flows.filter fun c => listeners.classify c.dstIp = scope).length) ∧
    ∃ tick shown,
      ConnectionsTick.tickRows humanBytes answer = .ok tick ∧
      ConnectionsTick.tickRows humanBytes (answer.foldByScope (some .external)).1 = .ok shown ∧
      tick.rows.filter (FlowRow.isShown true) = shown.rows ∧
      FlowRow.hiddenFlows tick.rows true =
        ((answer.foldByScope (some .external)).2 .internal,
          (answer.foldByScope (some .external)).2 .lan) := by
  intro flows sample answer
  have answer_ : answer = AnsweredGroup.table groupBy (answeredGroups groupBy sample.tickRows) := by
    refine ConnectionsSample.connectionsSql_written groupBy ?_
    cases connections <;> exact older
  have rows := ConnectionsSample.rows_tickRows sample
  have facts := buildConnectionsSample_rows tsUs listeners plain
  have small : ((answeredGroups groupBy sample.tickRows).map fun a => a.count.getD 0).sum ≤
      u64Max := by
    have all := sum_answeredGroups_all groupBy sample.tickRows .count
    rw [rows, built_figure .count (fits .count)] at all
    exact all.trans_le ((fits .count).trans (by decide))
  rw [answer_]
  refine ⟨fun figure => ?_, ?_, fun none_ => ?_, fun keep => ⟨?_, fun scope => ?_⟩, ?_⟩
  · rw [AnsweredGroup.total_table (built_fits figure (fits figure)), sum_answeredGroups_all, rows,
      built_figure figure (fits figure)]
  · have texts : ((answeredGroups groupBy sample.tickRows).map
        (AnsweredGroup.cells groupBy)).map (AnsweredGroup.table groupBy
          (answeredGroups groupBy sample.tickRows)).groupCells =
        (answeredGroups groupBy sample.tickRows).map (AnsweredGroup.texts groupBy) := by
      rw [List.map_map]
      exact List.map_congr_left fun a _ => groupCells_cells _ a
    exact texts ▸ answered_nodup fun r held => (facts r held).1
  · have empty : sample.rows = [] ∧ sample.tsUs = tsUs := by
      change (buildConnectionsSample tsUs connections listeners).rows = [] ∧
        (buildConnectionsSample tsUs connections listeners).tsUs = tsUs
      cases connections with
      | none => exact ⟨rfl, rfl⟩
      | some connections =>
        have nothing : connections = [] := none_
        rw [nothing]
        exact ⟨rfl, rfl⟩
    have single : answeredGroups groupBy sample.tickRows =
        [AnsweredGroup.marker ⟨tsUs, sample.verdict, none⟩] := by
      rw [tickRows_nil empty.1, empty.2]
      exact List.mergeSort_singleton _
    rw [single]
    rfl
  · have counts : ConnectionScope.all.map ((AnsweredGroup.table groupBy
        (answeredGroups groupBy sample.tickRows)).foldByScope (some keep)).2 =
        ConnectionScope.all.map fun scope => if scope = keep then 0
          else (flows.filter fun c => listeners.classify c.dstIp = scope).length :=
      List.map_congr_left fun scope _ => hidden_count plain (fits .count) keep scope
    have cover := scopes_cover (fun c => listeners.classify c.dstIp) flows
    rw [shown_count plain (fits .count) keep, counts]
    change (flows.filter fun c => listeners.classify c.dstIp = keep).length + _ = _
    cases keep <;> simp [ConnectionScope.all] <;> omega
  · exact hidden_count plain (fits .count) keep scope
  · exact readers_agree groupBy humanBytes _ (built_fits .count (fits .count)) small

def flowTo (dstIp : Option String) : LiveConnection :=
  ⟨some "claude.ai", dstIp, some 443, some "stable", "tcp", some "vless-out-6", 10, 20⟩

def tunListeners : OwnListeners := ⟨some "172.19.0.1", none, some "utun10", none, [], []⟩

/-- A flow to a name and one to the proxy's own listener, in a record with an older tick. -/
theorem flows_counted_once_of_two :
    let older : SampleStore := ⟨⟨⟨[], [], [], [], [], [], []⟩, [], [], [], [], [],
      [⟨41, .skip, none⟩], [], [], []⟩, [], []⟩
    let sample := buildConnectionsSample 42 (some [flowTo none, flowTo (some "172.19.0.1")])
      tunListeners
    let answer := connectionsSql .processHost (older.written (.connections sample)).db.connectionSample
    answer.total "download" = 40 ∧ (answer.rows.map answer.groupCells).Nodup := by
  have counted := flows_counted_once .processHost Nat.repr tunListeners
    (some [flowTo none, flowTo (some "172.19.0.1")]) 42
    ⟨⟨⟨[], [], [], [], [], [], []⟩, [], [], [], [], [], [⟨41, .skip, none⟩], [], [], []⟩, [], []⟩
    (by simp [flowTo, LiveConnection.Plain]) (fun figure => by cases figure <;> decide) (by simp)
  exact ⟨counted.1 .download, counted.2.1⟩

end NetObserver
