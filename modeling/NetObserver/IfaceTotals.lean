import NetObserver.IfaceGroups

/-! The figures that the command line prints for an interface, against the stored flows of that
interface. -/

namespace NetObserver

open Machine

/-- Every printed row has the figures of the stored rows of its interface; the dash is for those
without one. -/
def QueryTable.IfacesExact (printed : QueryTable) (cs : ConnectionsSample)
    (scope : ConnectionScope) : Prop :=
  ∀ row ∈ printed.rows, ∀ figure : FlowFigure,
    printed.figureOf figure.column row = figure.ofRows (cs.ifaceRows scope
      (if printed.cellOr "iface" row = "-" then none else some (printed.cellOr "iface" row)))

/-- The printed rows count as many flows as the stored rows of the interface that was asked for. -/
def QueryTable.IfaceExact (printed : QueryTable) (cs : ConnectionsSample) (scope : ConnectionScope)
    (iface : String) : Prop :=
  printed.total "count" = FlowFigure.count.ofRows (cs.ifaceRows scope (some iface))

/-- No destination of the scope is reached through two interfaces, or through one that is known and
one that is not; and none is called nothing, or by the dash. -/
def ConnectionsSample.OneIfaceEach (cs : ConnectionsSample) (scope : ConnectionScope) : Prop :=
  ∀ r ∈ cs.rows, r.scope = scope → (r.iface ≠ some "" ∧ r.iface ≠ some "-") ∧
    ∀ r' ∈ cs.rows, ConnectionsGroupBy.host.Together r r' → r'.iface = r.iface

/-- What the flows of one interface add up to is a number of the reader's. -/
def ConnectionsSample.FiguresFit (cs : ConnectionsSample) (scope : ConnectionScope) : Prop :=
  ∀ (iface : Option String) (figure : FlowFigure),
    figure.ofRows (cs.ifaceRows scope iface) ≤ u64Max

namespace FlowFigure

def ofTotal : FlowFigure → QueryTable.IfaceTotal → Nat
  | count => QueryTable.IfaceTotal.count
  | upload => QueryTable.IfaceTotal.upload
  | download => QueryTable.IfaceTotal.download

theorem ofTotal_join {figure : FlowFigure} (old new : QueryTable.IfaceTotal)
    (_ : old.iface = new.iface) (fits : figure.ofTotal old + figure.ofTotal new ≤ u64Max) :
    figure.ofTotal (old.join new) = figure.ofTotal old + figure.ofTotal new := by
  cases figure <;> exact Nat.min_eq_left fits

theorem ofTotal_join_le (figure : FlowFigure) (old new : QueryTable.IfaceTotal) :
    figure.ofTotal (old.join new) ≤ u64Max := by
  cases figure <;> exact Nat.min_le_right _ _

end FlowFigure

/-- The name that a group is added up under. -/
def AnsweredGroup.ifaceName (a : AnsweredGroup) : String :=
  if (a.iface.getD "").isEmpty then "-" else a.iface.getD ""

/-- A group as `fold_by_iface` reads it. -/
def AnsweredGroup.ifaceTotal (a : AnsweredGroup) : QueryTable.IfaceTotal :=
  ⟨a.ifaceName, FlowFigure.count.read a, FlowFigure.upload.read a, FlowFigure.download.read a⟩

/-- What `fold_by_iface` adds up, in the order in which the names come. -/
def ifaceTotals (groups : List AnsweredGroup) : List QueryTable.IfaceTotal :=
  ((groups.filter fun a => !(a.key.getD "").isEmpty).map AnsweredGroup.ifaceTotal).foldl
    (Keyed.upsert QueryTable.IfaceTotal.iface QueryTable.IfaceTotal.join) []

def ifaceTable (totals : List QueryTable.IfaceTotal) : QueryTable :=
  ⟨["iface", "count", "upload", "download"], totals.map QueryTable.IfaceTotal.cells⟩

section

variable {groups : List AnsweredGroup} {totals : List QueryTable.IfaceTotal}

theorem FlowFigure.ofTotal_ifaceTotal (figure : FlowFigure) (a : AnsweredGroup) :
    figure.ofTotal a.ifaceTotal = figure.read a := by
  cases figure <;> rfl

theorem cellOr_ifaceTable (t : QueryTable.IfaceTotal) :
    (ifaceTable totals).cellOr "iface" t.cells = t.iface := rfl

theorem figureOf_ifaceTable (figure : FlowFigure) {t : QueryTable.IfaceTotal}
    (fits : figure.ofTotal t ≤ u64Max) :
    (ifaceTable totals).figureOf figure.column t.cells = figure.ofTotal t := by
  have cell : (ifaceTable totals).cellOr figure.column t.cells = (figure.ofTotal t).repr := by
    cases figure <;> rfl
  rw [QueryTable.figureOf, cell, readU64_repr, if_pos fits, Option.getD_some]

theorem foldByIface_table (groups : List AnsweredGroup) :
    (AnsweredGroup.tableOfScope .host groups).foldByIface =
      if groups.all fun a => (a.key.getD "").isEmpty then AnsweredGroup.tableOfScope .host groups
      else ifaceTable ((ifaceTotals groups).mergeSort fun a b => decide (b.count ≤ a.count)) := by
  have there : (["iface", "count", "upload", "download", "key"].any fun column =>
      ((AnsweredGroup.tableOfScope .host groups).columns.idxOf? column).isNone) = false := rfl
  have markers : (AnsweredGroup.tableOfScope .host groups).rows.all
      (AnsweredGroup.tableOfScope .host groups).isMarker =
        groups.all fun a => (a.key.getD "").isEmpty := by
    change (groups.map (AnsweredGroup.cellsOfScope .host)).all _ = _
    rw [List.all_map]
    rfl
  have read : (((AnsweredGroup.tableOfScope .host groups).rows.filter fun row =>
      !(AnsweredGroup.tableOfScope .host groups).isMarker row).map
        (AnsweredGroup.tableOfScope .host groups).ifaceTotalOf) =
      (groups.filter fun a => !(a.key.getD "").isEmpty).map AnsweredGroup.ifaceTotal := by
    change ((groups.map (AnsweredGroup.cellsOfScope .host)).filter _).map _ = _
    rw [List.filter_map, List.map_map]
    refine List.map_congr_left fun a _ => ?_
    have count : (AnsweredGroup.tableOfScope .host groups).figureOf "count" _ = _ :=
      AnsweredGroup.figureOf_tableOfScope a .count
    have upload : (AnsweredGroup.tableOfScope .host groups).figureOf "upload" _ = _ :=
      AnsweredGroup.figureOf_tableOfScope a .upload
    have download : (AnsweredGroup.tableOfScope .host groups).figureOf "download" _ = _ :=
      AnsweredGroup.figureOf_tableOfScope a .download
    rw [Function.comp_apply, QueryTable.ifaceTotalOf, count, upload, download]
    rfl
  unfold QueryTable.foldByIface
  dsimp only
  rw [there, markers, read]
  rfl

theorem ifaceTotal_keys (old new : QueryTable.IfaceTotal) (same : old.iface = new.iface) :
    (old.join new).iface = new.iface := same

theorem ifaceTotals_nodup (groups : List AnsweredGroup) :
    ((ifaceTotals groups).map QueryTable.IfaceTotal.iface).Nodup := by
  have none_ : (([] : List QueryTable.IfaceTotal).map QueryTable.IfaceTotal.iface).Nodup :=
    List.nodup_nil
  exact Keyed.foldl_upsert_keys_nodup ifaceTotal_keys none_ _

theorem ofTotal_le {t : QueryTable.IfaceTotal} (mem : t ∈ ifaceTotals groups)
    (figure : FlowFigure) : figure.ofTotal t ≤ u64Max := by
  refine Keyed.forall_foldl_upsert (P := fun t => figure.ofTotal t ≤ u64Max) (fun t listed => ?_)
    (fun old new _ => figure.ofTotal_join_le old new) t mem
  obtain ⟨a, _, rfl⟩ := List.mem_map.mp listed
  rw [figure.ofTotal_ifaceTotal]
  exact figure.read_le a

/-- Of each name the total is what its groups add up to, as long as that is a number of the
reader's. -/
theorem ofTotal_of_mem {t : QueryTable.IfaceTotal} (mem : t ∈ ifaceTotals groups)
    {figure : FlowFigure}
    (fits : ((groups.filter fun a => a.ifaceName == t.iface && !(a.key.getD "").isEmpty).map
      figure.read).sum ≤ u64Max) :
    figure.ofTotal t = ((groups.filter fun a =>
      a.ifaceName == t.iface && !(a.key.getD "").isEmpty).map figure.read).sum := by
  have worth : figure.ofTotal ∘ AnsweredGroup.ifaceTotal = figure.read :=
    funext figure.ofTotal_ifaceTotal
  have named : ((((groups.filter fun a => !(a.key.getD "").isEmpty).map
      AnsweredGroup.ifaceTotal).filter fun other => decide (other.iface = t.iface)).map
        figure.ofTotal) = (groups.filter fun a =>
          a.ifaceName == t.iface && !(a.key.getD "").isEmpty).map figure.read := by
    rw [List.filter_map, List.map_map, List.filter_filter, worth]
    rfl
  have kept : (((ifaceTotals groups).filter fun other => decide (other.iface = t.iface)).map
      figure.ofTotal).sum = _ :=
    Keyed.sum_filter_foldl_upsert (fun name => decide (name = t.iface)) ifaceTotal_keys
      FlowFigure.ofTotal_join (by rw [named]; exact fits)
  rw [← Keyed.sum_of_key (ifaceTotals_nodup groups) mem figure.ofTotal, kept, named]

/-- All the names together have what all the groups add up to. -/
theorem sum_ifaceTotals {figure : FlowFigure}
    (fits : ((groups.filter fun a => !(a.key.getD "").isEmpty).map figure.read).sum ≤ u64Max) :
    ((ifaceTotals groups).map figure.ofTotal).sum =
      ((groups.filter fun a => !(a.key.getD "").isEmpty).map figure.read).sum := by
  have worth : figure.ofTotal ∘ AnsweredGroup.ifaceTotal = figure.read :=
    funext figure.ofTotal_ifaceTotal
  rw [ifaceTotals, Keyed.sum_foldl_upsert ifaceTotal_keys FlowFigure.ofTotal_join
    (by rw [List.map_map, worth]; exact fits), List.map_map, worth]

end

section

variable {cs : ConnectionsSample} {groupBy : ConnectionsGroupBy} {scope : ConnectionScope}
  {iface : Option String} {a : AnsweredGroup}

theorem mem_of_mem_keptGroups (mem : a ∈ keptGroups groupBy cs iface scope) :
    a ∈ answeredGroups groupBy cs.tickRows :=
  (List.mem_filter.mp (List.mem_filter.mp mem).1).1

/-- The table that is printed for one scope, and with one interface or all of them. -/
theorem shown_table (by_ : GroupByArg) (iface : Option String) :
    (connectionsShown by_ iface (some scope)
      (AnsweredGroup.table by_.toGroupBy (answeredGroups by_.toGroupBy cs.tickRows))).1 =
    if by_ = .iface then
      (AnsweredGroup.tableOfScope .host (keptGroups .host cs iface scope)).foldByIface
    else AnsweredGroup.tableOfScope by_.toGroupBy (keptGroups by_.toGroupBy cs iface scope) := by
  unfold connectionsShown
  dsimp only
  rw [filterByIface_table, AnsweredGroup.foldByScope_table]
  by_cases folded : by_ = .iface
  · rw [if_pos folded, if_pos folded, folded]
    rfl
  · rw [if_neg folded, if_neg folded]
    rfl

variable (counted : FlowFigure.count.ofRows cs.rows ≤ u64Max)

include counted

/-- The count of a group is read as it is. -/
theorem read_count (mem : a ∈ keptGroups groupBy cs iface scope) :
    FlowFigure.count.read a = (FlowFigure.count.ofGroup a).getD 0 := by
  refine FlowFigure.read_of_fits fun n told => ?_
  have below := FlowFigure.le_of_answered (mem_of_mem_keptGroups mem) told
  rw [ConnectionsSample.rows_tickRows] at below
  exact below.trans counted

theorem keptGroups_small :
    ((keptGroups groupBy cs iface scope).map fun a =>
      (FlowFigure.count.ofGroup a).getD 0).sum ≤ u64Max := by
  have all := sum_answeredGroups_all groupBy cs.tickRows .count
  rw [ConnectionsSample.rows_tickRows] at all
  refine le_trans (List.Sublist.sum_le_sum ?_ fun _ _ => Nat.zero_le _) (all.trans_le counted)
  exact (List.filter_sublist.trans List.filter_sublist).map _

/-- What is left of the groups without the row of a tick that listed nothing counts the same. -/
theorem sum_nonempty (named : ∀ r ∈ cs.rows, r.Named) :
    (((keptGroups .host cs iface scope).filter fun a => !(a.key.getD "").isEmpty).map
        FlowFigure.count.read).sum =
      ((keptGroups .host cs iface scope).map fun a => (FlowFigure.count.ofGroup a).getD 0).sum := by
  have named' : ∀ r ∈ cs.tickRows.filterMap ConnectionSampleRow.row, r.Named := by
    rw [ConnectionsSample.rows_tickRows]
    exact named
  rw [Grouped.sum_filter]
  refine congrArg List.sum (List.map_congr_left fun a mem => ?_)
  have listed := mem_of_mem_keptGroups mem
  rw [read_count counted mem]
  rcases answered_cases listed with ⟨group, rfl⟩ | ⟨r, rfl⟩
  · rcases answered_parts named' listed with ⟨none_, _⟩ | ⟨key, _, told, some_, _⟩
    · cases none_
    · have nonempty : key.isEmpty = false := by
        rw [← Bool.not_eq_true, String.isEmpty_iff]
        exact some_
      rw [told, Option.getD_some, nonempty]
      rfl
  · rw [FlowFigure.ofGroup_marker]
    rfl

/-- Adding up by interface loses none of the flows that are shown. -/
theorem total_foldByIface (named : ∀ r ∈ cs.rows, r.Named) :
    (AnsweredGroup.tableOfScope .host (keptGroups .host cs iface scope)).foldByIface.total
        FlowFigure.count.column =
      ((keptGroups .host cs iface scope).map fun a => (FlowFigure.count.ofGroup a).getD 0).sum := by
  have small : ((keptGroups .host cs iface scope).map fun a =>
      (FlowFigure.count.ofGroup a).getD 0).sum ≤ u64Max := keptGroups_small counted
  have nonempty : (((keptGroups .host cs iface scope).filter fun a =>
      !(a.key.getD "").isEmpty).map FlowFigure.count.read).sum = _ := sum_nonempty counted named
  rw [foldByIface_table]
  split
  next =>
    unfold QueryTable.total
    change ((List.map (AnsweredGroup.cellsOfScope .host) _).map _).sum = _
    rw [List.map_map]
    refine congrArg List.sum (List.map_congr_left fun a mem => ?_)
    exact (AnsweredGroup.figureOf_tableOfScope a .count).trans (read_count counted mem)
  next =>
    have sorted := List.mergeSort_perm (ifaceTotals (keptGroups .host cs iface scope))
      fun a b => decide (b.count ≤ a.count)
    have read : (ifaceTable ((ifaceTotals (keptGroups .host cs iface scope)).mergeSort
        fun a b => decide (b.count ≤ a.count))).total FlowFigure.count.column =
        ((ifaceTotals (keptGroups .host cs iface scope)).map FlowFigure.count.ofTotal).sum := by
      rw [← (sorted.map FlowFigure.count.ofTotal).sum_eq]
      unfold QueryTable.total
      change ((List.map QueryTable.IfaceTotal.cells _).map _).sum = _
      rw [List.map_map]
      refine congrArg List.sum (List.map_congr_left fun t mem => ?_)
      exact figureOf_ifaceTable .count (ofTotal_le (sorted.mem_iff.mp mem) .count)
    rw [read, sum_ifaceTotals (by rw [nonempty]; exact small), nonempty]

end

section

variable {cs : ConnectionsSample} {scope : ConnectionScope} {f : TickFlow}
  (recorded : ∀ r ∈ cs.rows, r.Recorded)
  (counted : FlowFigure.count.ofRows cs.rows ≤ u64Max)

include recorded counted

/-- What is printed with one interface asked for, under any grouping. -/
theorem iface_exact_iff (by_ : GroupByArg) (iface : String) :
    (connectionsShown by_ (some iface) (some scope) (AnsweredGroup.table by_.toGroupBy
      (answeredGroups by_.toGroupBy cs.tickRows))).1.IfaceExact cs scope iface ↔
        cs.KeptApart scope by_.toGroupBy iface := by
  rw [← kept_exact_iff recorded, QueryTable.IfaceExact, shown_table]
  by_cases folded : by_ = .iface
  · have host : by_.toGroupBy = .host := by
      rw [folded]
      rfl
    have total : (AnsweredGroup.tableOfScope .host
        (keptGroups .host cs (some iface) scope)).foldByIface.total "count" = _ :=
      total_foldByIface counted (named_of_recorded recorded)
    rw [if_pos folded, total, host]
  · have total : (AnsweredGroup.tableOfScope by_.toGroupBy
        (keptGroups by_.toGroupBy cs (some iface) scope)).total FlowFigure.count.column =
        ((keptGroups by_.toGroupBy cs (some iface) scope).map fun a =>
          (FlowFigure.count.ofGroup a).getD 0).sum := by
      refine AnsweredGroup.total_tableOfScope fun a mem n told => ?_
      have below := FlowFigure.le_of_answered (mem_of_mem_keptGroups mem) told
      rw [ConnectionsSample.rows_tickRows] at below
      exact below.trans counted
    rw [if_neg folded]
    exact Eq.congr_left total

omit recorded counted

/-- The name under which the group of a flow is added up. -/
def ConnectionsSample.nameOf (cs : ConnectionsSample) (f : TickFlow) : String :=
  (f.groupIn .host cs.tickFlows).ifaceName

/-- The dash is the name of the groups without an interface. -/
theorem nameOf_dash (none_ : cs.commonOf .host f = none) : cs.nameOf f = "-" := by
  unfold ConnectionsSample.commonOf at none_
  unfold ConnectionsSample.nameOf AnsweredGroup.ifaceName
  rw [none_]
  rfl

theorem commonOf_of_nameOf {name : String} (named : name ≠ "-") (told : cs.nameOf f = name) :
    cs.commonOf .host f = some name ∧ name ≠ "" := by
  unfold ConnectionsSample.nameOf AnsweredGroup.ifaceName at told
  by_cases empty : ((f.groupIn .host cs.tickFlows).iface.getD "").isEmpty = true
  · rw [if_pos empty] at told
    exact absurd told.symm named
  · rw [if_neg empty] at told
    have some_ : name ≠ "" := by
      intro same
      rw [told, same] at empty
      exact empty rfl
    exact ⟨ConnectionsSample.commonOf_of_cell some_ told, some_⟩

/-- A flow without an interface has none in common with others. -/
theorem commonOf_none (mem : f ∈ cs.tickFlows) (told : f.row.iface = none) :
    cs.commonOf .host f = none := by
  cases common : cs.commonOf .host f with
  | none => rfl
  | some other =>
    have same := ConnectionsSample.iface_of_commonOf mem common
    exact absurd (same.symm.trans told) (Option.some_ne_none _)

/-- The stored rows that the printed name stands for. -/
def ifaceNamed (name : String) : Option String := if name = "-" then none else some name

include recorded

/-- A printed name counts its rows exactly when the groups of that name are theirs. -/
theorem name_exact_iff (name : String) :
    ((cs.tickFlows.filter fun f => f.row.scope == scope && cs.nameOf f == name).map fun f =>
        FlowFigure.count.ofRow f.row).sum =
          FlowFigure.count.ofRows (cs.ifaceRows scope (ifaceNamed name)) ↔
      ∀ f ∈ cs.tickFlows, (f.row.scope == scope && cs.nameOf f == name) =
        (f.row.scope == scope && f.row.iface == ifaceNamed name) := by
  rw [ConnectionsSample.ofRows_ifaceRows]
  refine counts_eq_iff recorded ?_
  by_cases dash : name = "-"
  · refine .inr fun f mem told => ?_
    obtain ⟨here, none_⟩ := Bool.and_eq_true_iff.mp told
    rw [ifaceNamed, if_pos dash] at none_
    have nothing := commonOf_none mem (eq_of_beq none_)
    rw [here, nameOf_dash nothing, dash]
    rfl
  · refine .inl fun f mem told => ?_
    obtain ⟨here, same⟩ := Bool.and_eq_true_iff.mp told
    have common := (commonOf_of_nameOf dash (eq_of_beq same)).1
    rw [here, ifaceNamed, if_neg dash, ConnectionsSample.iface_of_commonOf mem common,
      beq_self_eq_true]
    rfl

omit recorded in
theorem ifaceNamed_injective {name name' : String} (same : ifaceNamed name = ifaceNamed name') :
    name = name' := by
  unfold ifaceNamed at same
  split at same
  next dash =>
    split at same
    next dash' => exact dash.trans dash'.symm
    next => cases same
  next =>
    split at same
    next => cases same
    next => exact Option.some.inj same

omit recorded in
theorem nameOf_some {iface : String} (common : cs.commonOf .host f = some iface)
    (some_ : iface ≠ "") : cs.nameOf f = iface := by
  have full : iface.isEmpty = false := by
    rw [← Bool.not_eq_true, String.isEmpty_iff]
    exact some_
  unfold ConnectionsSample.commonOf at common
  unfold ConnectionsSample.nameOf AnsweredGroup.ifaceName
  rw [common, Option.getD_some, full]
  rfl

omit recorded in
/-- The names are the interfaces of the flows exactly when every destination has one interface. -/
theorem ifaceNames_iff :
    (∀ f ∈ cs.tickFlows, f.row.scope = scope → f.row.iface = ifaceNamed (cs.nameOf f)) ↔
      cs.OneIfaceEach scope := by
  constructor
  · intro names r held here
    obtain ⟨f, mem, rfl⟩ := ConnectionsSample.exists_flow held
    have told := names f mem here
    by_cases dash : cs.nameOf f = "-"
    · rw [ifaceNamed, if_pos dash] at told
      rw [told]
      refine ⟨⟨(Option.some_ne_none _).symm, (Option.some_ne_none _).symm⟩, fun r' held' together => ?_⟩
      obtain ⟨f', mem', rfl⟩ := ConnectionsSample.exists_flow held'
      have there := names f' mem' (together.2.2.symm.trans here)
      have common := ConnectionsSample.commonOf_together mem mem' together
      have same : cs.nameOf f' = cs.nameOf f := by
        unfold ConnectionsSample.commonOf at common
        unfold ConnectionsSample.nameOf AnsweredGroup.ifaceName
        rw [common]
      rw [there, same, ifaceNamed, if_pos dash]
    · obtain ⟨common, some_⟩ := commonOf_of_nameOf dash rfl
      rw [ConnectionsSample.iface_of_commonOf mem common]
      refine ⟨⟨fun same => some_ (Option.some.inj same), fun same => dash (Option.some.inj same)⟩, ?_⟩
      exact (ConnectionsSample.commonOf_eq_some mem).mp common
  · intro each f mem here
    obtain ⟨⟨full, plain⟩, all⟩ := each f.row (mem_flows mem).2.2 here
    cases told : f.row.iface with
    | none =>
      have nothing := commonOf_none mem told
      rw [nameOf_dash nothing]
      rfl
    | some name =>
      rw [told] at full plain all
      have some_ : name ≠ "" := fun same => full (congrArg some same)
      have other : name ≠ "-" := fun same => plain (congrArg some same)
      have common := (ConnectionsSample.commonOf_eq_some mem).mpr all
      rw [nameOf_some common some_, ifaceNamed, if_neg other]

/-- The groups of the scope that have flows. -/
theorem mem_kept_host {a : AnsweredGroup} :
    (a ∈ keptGroups .host cs none scope ∧ (a.key.getD "").isEmpty = false) ↔
      ∃ f ∈ cs.tickFlows, f.row.scope = scope ∧ a = f.groupIn .host cs.tickFlows := by
  rw [keptGroups, List.mem_filter, List.mem_filter, mem_answeredGroups]
  constructor
  · rintro ⟨⟨⟨⟨f, mem, rfl⟩ | ⟨r, _, _, rfl⟩, _⟩, shown⟩, nonempty⟩
    · refine ⟨f, mem, ?_, rfl⟩
      rw [AnsweredGroup.shownIn] at shown
      have told := (Bool.or_eq_true_iff.mp shown).resolve_left (by
        rw [nonempty]
        exact Bool.false_ne_true)
      exact eq_of_beq told
    · cases nonempty
  · rintro ⟨f, mem, here, rfl⟩
    have some_ := keyOf_ne_empty .host (recorded f.row (mem_flows mem).2.2).1
    have nonempty : (((f.groupIn .host cs.tickFlows).key).getD "").isEmpty = false := by
      rw [← Bool.not_eq_true, String.isEmpty_iff]
      exact some_
    refine ⟨⟨⟨.inl ⟨f, mem, rfl⟩, rfl⟩, ?_⟩, nonempty⟩
    rw [AnsweredGroup.shownIn, nonempty, Bool.false_or]
    exact beq_iff_eq.mpr here

theorem mem_ifaceTotals {name : String} :
    (∃ t ∈ ifaceTotals (keptGroups .host cs none scope), t.iface = name) ↔
      ∃ f ∈ cs.tickFlows, f.row.scope = scope ∧ cs.nameOf f = name := by
  have names := Keyed.foldl_upsert_keys ifaceTotal_keys (((keptGroups .host cs none scope).filter
    fun a => !(a.key.getD "").isEmpty).map AnsweredGroup.ifaceTotal)
  have listed : (∃ t ∈ ifaceTotals (keptGroups .host cs none scope), t.iface = name) ↔
      name ∈ (ifaceTotals (keptGroups .host cs none scope)).map QueryTable.IfaceTotal.iface :=
    List.mem_map.symm
  rw [listed, ifaceTotals, names, List.mem_eraseDups, List.map_map, List.mem_map]
  constructor
  · rintro ⟨a, mem, rfl⟩
    obtain ⟨kept, nonempty⟩ := List.mem_filter.mp mem
    obtain ⟨f, held, here, rfl⟩ := (mem_kept_host recorded).mp
      ⟨kept, Bool.not_eq_true' _ |>.mp nonempty⟩
    exact ⟨f, held, here, rfl⟩
  · rintro ⟨f, held, here, rfl⟩
    obtain ⟨kept, nonempty⟩ := (mem_kept_host recorded).mpr ⟨f, held, here, rfl⟩
    refine ⟨f.groupIn .host cs.tickFlows, List.mem_filter.mpr ⟨kept, ?_⟩, rfl⟩
    rw [nonempty]
    rfl

theorem sum_named (figure : FlowFigure) (name : String) :
    (((keptGroups .host cs none scope).filter fun a =>
        a.ifaceName == name && !(a.key.getD "").isEmpty).map fun a =>
          (figure.ofGroup a).getD 0).sum =
      ((cs.tickFlows.filter fun f => f.row.scope == scope && cs.nameOf f == name).map fun f =>
        figure.ofRow f.row).sum := by
  rw [keptGroups, List.filter_filter, List.filter_filter]
  refine sum_of_scope (named_of_recorded recorded) figure (fun a => a.ifaceName == name) ?_
  intro a _ key s told nonempty there
  rw [AnsweredGroup.shownIn, AnsweredGroup.keptBy, told, there, Option.getD_some, nonempty,
    Bool.false_or, Bool.not_false, Bool.and_true, Bool.and_true, Bool.and_comm]
  rfl

/-- Where the printed names are the interfaces, a name has what its rows add up to. -/
theorem ofTotal_eq (names : ∀ f ∈ cs.tickFlows, f.row.scope = scope →
      f.row.iface = ifaceNamed (cs.nameOf f)) (fit : cs.FiguresFit scope)
    {t : QueryTable.IfaceTotal} (mem : t ∈ ifaceTotals (keptGroups .host cs none scope))
    (figure : FlowFigure) :
    figure.ofTotal t = figure.ofRows (cs.ifaceRows scope (ifaceNamed t.iface)) := by
  have same : ∀ f ∈ cs.tickFlows, (f.row.scope == scope && cs.nameOf f == t.iface) =
      (f.row.scope == scope && f.row.iface == ifaceNamed t.iface) := by
    intro f seen
    by_cases here : f.row.scope = scope
    · rw [names f seen here, Bool.eq_iff_iff, Bool.and_eq_true_iff, Bool.and_eq_true_iff,
        beq_iff_eq, beq_iff_eq, beq_iff_eq]
      exact and_congr_right fun _ => ⟨congrArg ifaceNamed, ifaceNamed_injective⟩
    · have other : (f.row.scope == scope) = false := beq_eq_false_iff_ne.mpr here
      rw [other, Bool.false_and, Bool.false_and]
  have stored : (((keptGroups .host cs none scope).filter fun a =>
      a.ifaceName == t.iface && !(a.key.getD "").isEmpty).map fun a =>
        (figure.ofGroup a).getD 0).sum =
      figure.ofRows (cs.ifaceRows scope (ifaceNamed t.iface)) := by
    rw [sum_named recorded, ConnectionsSample.ofRows_ifaceRows, List.filter_congr same]
  have within := fit (ifaceNamed t.iface) figure
  rw [← stored] at within ⊢
  have read : (((keptGroups .host cs none scope).filter fun a =>
      a.ifaceName == t.iface && !(a.key.getD "").isEmpty).map figure.read).sum =
      (((keptGroups .host cs none scope).filter fun a =>
        a.ifaceName == t.iface && !(a.key.getD "").isEmpty).map fun a =>
          (figure.ofGroup a).getD 0).sum := by
    refine congrArg List.sum (List.map_congr_left fun a held => ?_)
    refine FlowFigure.read_of_fits fun n told => le_trans (List.le_sum_of_mem ?_) within
    exact List.mem_map.mpr ⟨a, held, by rw [Option.mem_def.mp told, Option.getD_some]⟩
  rw [← read] at within ⊢
  exact ofTotal_of_mem mem within

/-- Where every group is without a key, nothing of the scope is stored either. -/
theorem exact_of_nothing (nothing : ((keptGroups .host cs none scope).all fun a =>
      (a.key.getD "").isEmpty) = true) :
    (AnsweredGroup.tableOfScope .host (keptGroups .host cs none scope)).IfacesExact cs scope ∧
      (∀ f ∈ cs.tickFlows, f.row.scope = scope → f.row.iface = ifaceNamed (cs.nameOf f)) ∧
        cs.FiguresFit scope := by
  have none_ : ∀ f ∈ cs.tickFlows, f.row.scope ≠ scope := by
    intro f mem here
    obtain ⟨kept, nonempty⟩ := (mem_kept_host recorded).mpr ⟨f, mem, here, rfl⟩
    rw [List.all_eq_true.mp nothing _ kept] at nonempty
    cases nonempty
  have stored (iface : Option String) : cs.ifaceRows scope iface = [] := by
    refine List.filter_eq_nil_iff.mpr fun r listed told => ?_
    obtain ⟨f, mem, rfl⟩ := ConnectionsSample.exists_flow listed
    exact none_ f mem (eq_of_beq (Bool.and_eq_true_iff.mp told).1)
  refine ⟨fun row mem figure => ?_, fun f mem here => absurd here (none_ f mem),
    fun iface figure => ?_⟩
  · obtain ⟨a, held, rfl⟩ := List.mem_map.mp mem
    rw [AnsweredGroup.figureOf_tableOfScope a figure, stored]
    rcases mem_answeredGroups.mp (mem_of_mem_keptGroups held) with ⟨f, seen, rfl⟩ | ⟨r, _, _, rfl⟩
    · have some_ := keyOf_ne_empty .host (recorded f.row (mem_flows seen).2.2).1
      exact absurd (String.isEmpty_iff.mp (List.all_eq_true.mp nothing _ held)) some_
    · rw [FlowFigure.read, FlowFigure.ofGroup_marker]
      rfl
  · rw [stored]
    exact Nat.zero_le _

omit recorded in
/-- The printed totals are exact where each is what the rows under its name add up to. -/
theorem ifacesExact_totals :
    (ifaceTable ((ifaceTotals (keptGroups .host cs none scope)).mergeSort
      fun a b => decide (b.count ≤ a.count))).IfacesExact cs scope ↔
      ∀ t ∈ ifaceTotals (keptGroups .host cs none scope), ∀ figure : FlowFigure,
        figure.ofTotal t = figure.ofRows (cs.ifaceRows scope (ifaceNamed t.iface)) := by
  have sorted := List.mergeSort_perm (ifaceTotals (keptGroups .host cs none scope))
    fun a b => decide (b.count ≤ a.count)
  constructor
  · intro exact_ t mem figure
    have row := exact_ t.cells (List.mem_map_of_mem (sorted.mem_iff.mpr mem)) figure
    rw [figureOf_ifaceTable figure (ofTotal_le mem figure), cellOr_ifaceTable] at row
    exact row
  · intro exact_ row listed figure
    obtain ⟨t, held, rfl⟩ := List.mem_map.mp listed
    have mem := sorted.mem_iff.mp held
    rw [figureOf_ifaceTable figure (ofTotal_le mem figure), cellOr_ifaceTable]
    exact exact_ t mem figure

include counted

/-- What is counted under a printed name. -/
theorem ofTotal_count {t : QueryTable.IfaceTotal}
    (mem : t ∈ ifaceTotals (keptGroups .host cs none scope)) :
    FlowFigure.count.ofTotal t =
      ((cs.tickFlows.filter fun f => f.row.scope == scope && cs.nameOf f == t.iface).map fun f =>
        FlowFigure.count.ofRow f.row).sum := by
  have read : (((keptGroups .host cs none scope).filter fun a =>
      a.ifaceName == t.iface && !(a.key.getD "").isEmpty).map FlowFigure.count.read).sum =
      (((keptGroups .host cs none scope).filter fun a =>
        a.ifaceName == t.iface && !(a.key.getD "").isEmpty).map fun a =>
          (FlowFigure.count.ofGroup a).getD 0).sum :=
    congrArg List.sum (List.map_congr_left fun a held =>
      read_count counted (List.mem_filter.mp held).1)
  have whole : ((keptGroups .host cs none scope).map fun a =>
      (FlowFigure.count.ofGroup a).getD 0).sum ≤ u64Max := keptGroups_small counted
  have small : (((keptGroups .host cs none scope).filter fun a =>
      a.ifaceName == t.iface && !(a.key.getD "").isEmpty).map FlowFigure.count.read).sum ≤
      u64Max := by
    rw [read]
    refine le_trans (List.Sublist.sum_le_sum ?_ fun _ _ => Nat.zero_le _) whole
    exact List.filter_sublist.map _
  rw [ofTotal_of_mem mem small, read, sum_named recorded]

/-- What is printed by interface. -/
theorem by_iface_exact_iff :
    (connectionsShown .iface none (some scope) (AnsweredGroup.table GroupByArg.iface.toGroupBy
      (answeredGroups GroupByArg.iface.toGroupBy cs.tickRows))).1.IfacesExact cs scope ↔
        cs.OneIfaceEach scope ∧ cs.FiguresFit scope := by
  rw [shown_table, if_pos rfl, foldByIface_table, ← ifaceNames_iff]
  split
  next nothing =>
    obtain ⟨exact_, each⟩ := exact_of_nothing recorded nothing
    exact iff_of_true exact_ each
  next =>
    rw [ifacesExact_totals]
    constructor
    · intro exact_
      have names : ∀ f ∈ cs.tickFlows, f.row.scope = scope →
          f.row.iface = ifaceNamed (cs.nameOf f) := by
        intro f mem here
        obtain ⟨t, held, named⟩ := (mem_ifaceTotals recorded).mpr ⟨f, mem, here, rfl⟩
        have counts := exact_ t held .count
        rw [ofTotal_count recorded counted held] at counts
        have told := (name_exact_iff recorded t.iface).mp counts f mem
        rw [named, here, beq_self_eq_true, beq_self_eq_true, Bool.true_and, Bool.true_and] at told
        exact eq_of_beq told.symm
      refine ⟨names, fun iface figure => ?_⟩
      by_cases none_ : cs.ifaceRows scope iface = []
      · rw [none_]
        exact Nat.zero_le _
      · obtain ⟨r, listed⟩ := List.exists_mem_of_ne_nil _ none_
        obtain ⟨stored, told⟩ := List.mem_filter.mp listed
        obtain ⟨here, left⟩ := Bool.and_eq_true_iff.mp told
        obtain ⟨f, mem, rfl⟩ := ConnectionsSample.exists_flow stored
        obtain ⟨t, held, named⟩ := (mem_ifaceTotals recorded).mpr ⟨f, mem, eq_of_beq here, rfl⟩
        have same : ifaceNamed t.iface = iface := by
          rw [named, ← names f mem (eq_of_beq here)]
          exact eq_of_beq left
        rw [← same, ← exact_ t held figure]
        exact ofTotal_le held figure
    · rintro ⟨names, fit⟩ t held figure
      exact ofTotal_eq recorded names fit held figure

end

/-- The ticks that the collector writes are recorded so: a name that the API leaves empty is none. -/
theorem built_recorded (tsUs : Int) (listeners : OwnListeners)
    {connections : Option (List LiveConnection)}
    (named : ∀ c ∈ connections.getD [], ∀ fact ∈ [c.host, c.dstIp, c.process], fact ≠ some "") :
    ∀ r ∈ (buildConnectionsSample tsUs connections listeners).rows, r.Recorded := by
  cases connections with
  | none =>
    intro r mem
    cases mem
  | some connections =>
    refine Keyed.forall_foldl_upsert (P := ConnectionRow.Recorded) (fun r mem => ?_)
      fun r new held => ?_
    · obtain ⟨c, listed, rfl⟩ := List.mem_map.mp mem
      exact ⟨named c listed, Nat.le_refl 1⟩
    · exact ⟨held.1, ConnectionRow.count_join_pos held.2⟩

/-- The figures printed for an interface are those of its flows exactly when no group of the scope
has flows of two interfaces, or of a known and an unknown one. -/
theorem iface_totals_exact_iff (t : SampleStore) (cs : ConnectionsSample)
    (recorded : ∀ r ∈ cs.rows, r.Recorded)
    (counted : FlowFigure.count.ofRows cs.rows ≤ u64Max)
    (older : ∀ r ∈ t.db.connectionSample, r.tsUs < cs.tsUs) (scope : ConnectionScope) :
    let record := (t.written (.connections cs)).db.connectionSample
    ((connectionsShown .iface none (some scope)
        (connectionsSql GroupByArg.iface.toGroupBy record)).1.IfacesExact cs scope ↔
      cs.OneIfaceEach scope ∧ cs.FiguresFit scope) ∧
    ∀ by_ iface,
      ((connectionsShown by_ (some iface) (some scope)
          (connectionsSql by_.toGroupBy record)).1.IfaceExact cs scope iface ↔
        cs.KeptApart scope by_.toGroupBy iface) := by
  dsimp only
  refine ⟨?_, fun by_ iface => ?_⟩
  · rw [ConnectionsSample.connectionsSql_written _ older]
    exact by_iface_exact_iff recorded counted
  · rw [ConnectionsSample.connectionsSql_written _ older]
    exact iface_exact_iff recorded counted by_ iface

/-- One name reached through the tunnel and around it. -/
def twoWays : ConnectionsSample :=
  let way (iface : String) : ConnectionRow :=
    ⟨some "claude.ai", none, some 443, some "stable", "tcp", some iface, 1, 10, 20, .external,
      some iface⟩
  ⟨42, .ok, [way "en0", way "utun10"]⟩

theorem twoWays_recorded : ∀ r ∈ twoWays.rows, r.Recorded := by
  simp [twoWays, ConnectionRow.Recorded, ConnectionRow.Named]

theorem twoWays_counted : FlowFigure.count.ofRows twoWays.rows ≤ u64Max := by decide

def emptyStore : SampleStore := ⟨⟨⟨[], [], [], [], [], [], []⟩, [], [], [], [], [], [], [], [], []⟩, [], []⟩

/-- The daemon answers the name with no interface, and the flow through `en0` is not counted. -/
theorem two_ways_lost :
    let record := (emptyStore.written (.connections twoWays)).db.connectionSample
    ¬ (connectionsShown .iface none (some .external) (connectionsSql .host record)).1.IfacesExact
        twoWays .external ∧
    ¬ (connectionsShown .host (some "en0") (some .external)
        (connectionsSql .host record)).1.IfaceExact twoWays .external "en0" := by
  have older : ∀ r ∈ emptyStore.db.connectionSample, r.tsUs < twoWays.tsUs := by simp [emptyStore]
  have together : ConnectionsGroupBy.host.Together (twoWays.rows.head (by decide))
      (twoWays.rows.getLast (by decide)) := ⟨rfl, nofun, rfl⟩
  dsimp only
  rw [ConnectionsSample.connectionsSql_written _ older]
  refine ⟨fun exact_ => ?_, fun exact_ => ?_⟩
  · have each := ((by_iface_exact_iff twoWays_recorded twoWays_counted).mp exact_).1
    have same := (each _ (List.head_mem _) rfl).2 _ (List.getLast_mem _) together
    exact absurd same (by decide)
  · have apart := (iface_exact_iff twoWays_recorded twoWays_counted .host "en0").mp exact_
    have same := apart _ (List.head_mem _) rfl rfl _ (List.getLast_mem _) together
    exact absurd same (by decide)

/-- Asked for by address, the two rows are still one group: neither has one. -/
theorem iface_totals_exact_iff_two_ways :
    ¬ (connectionsShown .ip (some "utun10") (some .external) (connectionsSql .ip
      (emptyStore.written (.connections twoWays)).db.connectionSample)).1.IfaceExact
        twoWays .external "utun10" := by
  have law := iface_totals_exact_iff emptyStore twoWays twoWays_recorded twoWays_counted
    (by simp [emptyStore]) .external
  intro exact_
  have apart := (law.2 .ip "utun10").mp exact_
  have together : ConnectionsGroupBy.ip.Together (twoWays.rows.getLast (by decide))
      (twoWays.rows.head (by decide)) := ⟨rfl, nofun, rfl⟩
  have same := apart _ (List.getLast_mem _) rfl rfl _ (List.head_mem _) together
  exact absurd same (by decide)

end NetObserver
