import NetObserver.ConnectionsQuery
import NetObserver.StarMap
import Mathlib.Logic.Function.Basic

/-! The two readers of the flow table: the command line, which folds it by scope and by interface,
and the bar's window. -/

namespace NetObserver

open Machine

def readU64 (cell : String) : Option Nat := StdText.parseUnsigned u64Max cell.toList

namespace ConnectionScope

def all : List ConnectionScope := [.internal, .lan, .external]

def ofToken (s : String) : Option ConnectionScope := all.find? fun scope => scope.asStr == s

end ConnectionScope

namespace QueryTable

variable (table : QueryTable)

/-- The cell of a row in a column, empty where the table or the row has none. -/
def cellOr (column : String) (row : List String) : String := (table.cell column row).getD ""

/-- A cell as the number that it spells. -/
def figureOf (column : String) (row : List String) : Nat :=
  (readU64 (table.cellOr column row)).getD 0

/-- What the cells of a column add up to. -/
def total (column : String) : Nat := (table.rows.map (table.figureOf column)).sum

/-- A row without a key is the one of a tick that listed nothing. -/
def isMarker (row : List String) : Bool :=
  (table.columns.idxOf? "key").isSome && (table.cellOr "key" row).isEmpty

def scopeOf (row : List String) : ConnectionScope :=
  (ConnectionScope.ofToken (table.cellOr "scope" row)).getD .external

def isKept (keep : ConnectionScope) (row : List String) : Bool :=
  table.isMarker row || table.scopeOf row == keep

/-- `fold_by_scope`: the rows of one scope, and the flows of each of the others. -/
def foldByScope (keep : Option ConnectionScope) : QueryTable × (ConnectionScope → Nat) :=
  match keep with
  | none => (table, fun _ => 0)
  | some keep =>
    let withoutScope (row : List String) : List String :=
      match table.columns.idxOf? "scope" with
      | some i => row.eraseIdx i
      | none => row
    let hide (hidden : ConnectionScope → Nat) (row : List String) : ConnectionScope → Nat :=
      Function.update hidden (table.scopeOf row)
        (satAddU64 (hidden (table.scopeOf row)) (table.figureOf "count" row))
    (⟨table.columns.filter (· ≠ "scope"), (table.rows.filter (table.isKept keep)).map withoutScope⟩,
      (table.rows.filter fun row => !table.isKept keep row).foldl hide fun _ => 0)

/-- `--iface`: the rows of one interface, and the row of a tick that listed nothing. -/
def filterByIface (iface : Option String) : QueryTable :=
  match iface with
  | none => table
  | some iface =>
    if (table.columns.idxOf? "iface").isNone then table
    else
      { table with rows := table.rows.filter fun row =>
          table.isMarker row || table.cellOr "iface" row == iface }

/-- An interface with what its rows add up to. -/
structure IfaceTotal where
  iface : String
  count : Nat
  upload : Nat
  download : Nat

namespace IfaceTotal

def join (old new : IfaceTotal) : IfaceTotal where
  iface := old.iface
  count := satAddU64 old.count new.count
  upload := satAddU64 old.upload new.upload
  download := satAddU64 old.download new.download

def cells (t : IfaceTotal) : List String :=
  [t.iface, t.count.repr, t.upload.repr, t.download.repr]

end IfaceTotal

def ifaceTotalOf (row : List String) : IfaceTotal where
  iface := if (table.cellOr "iface" row).isEmpty then "-" else table.cellOr "iface" row
  count := table.figureOf "count" row
  upload := table.figureOf "upload" row
  download := table.figureOf "download" row

/-- `--by iface`: the rows added up for each interface, the busiest first. -/
def foldByIface : QueryTable :=
  if ["iface", "count", "upload", "download", "key"].any fun column =>
      (table.columns.idxOf? column).isNone then table
  else if table.rows.all table.isMarker then table
  else
    let flows := table.rows.filter fun row => !table.isMarker row
    let groups := (flows.map table.ifaceTotalOf).foldl
      (Keyed.upsert IfaceTotal.iface IfaceTotal.join) []
    ⟨["iface", "count", "upload", "download"],
      (groups.mergeSort fun a b => decide (b.count ≤ a.count)).map IfaceTotal.cells⟩

end QueryTable

/-- The groupings of the command line; by interface is none of the daemon's. -/
inductive GroupByArg where
  | host
  | ip
  | ipPort
  | process
  | processHost
  | iface
deriving DecidableEq

def GroupByArg.toGroupBy : GroupByArg → ConnectionsGroupBy
  | host => .host
  | iface => .host
  | ip => .ip
  | ipPort => .ipPort
  | process => .process
  | processHost => .processHost

/-- The table that `connections` prints, and what it counts as hidden. The times in it are
rendered for the reader, which the model leaves out. -/
def connectionsShown (by_ : GroupByArg) (iface : Option String) (keep : Option ConnectionScope)
    (answer : QueryTable) : QueryTable × (ConnectionScope → Nat) :=
  let (table, hidden) := (answer.filterByIface iface).foldByScope keep
  (if by_ = .iface then table.foldByIface else table, hidden)

/-- One group as the window draws it. -/
structure FlowRow where
  key : String
  flows : String
  up : String
  down : String
  hosts : String
  scope : ConnectionScope
  count : Nat
deriving DecidableEq

inductive ConnectionsTick where
  | flows (tsUs : Int) (rows : List FlowRow)
  | empty (tsUs : Int) (verdict : String)
  | absent

def ConnectionsTick.rows : ConnectionsTick → List FlowRow
  | flows _ rows => rows
  | empty _ _ => []
  | absent => []

namespace FlowRow

def isShown (externalOnly : Bool) (row : FlowRow) : Bool :=
  !externalOnly || row.scope == .external

def hide (hidden : Nat × Nat) (row : FlowRow) : Nat × Nat :=
  match row.scope with
  | .internal => (satAddU64 hidden.1 row.count, hidden.2)
  | .lan => (hidden.1, satAddU64 hidden.2 row.count)
  | .external => hidden

/-- The flows that the box hides, the internal ones and those of the segment. -/
def hiddenFlows (rows : List FlowRow) (externalOnly : Bool) : Nat × Nat :=
  (rows.filter fun row => !isShown externalOnly row).foldl hide (0, 0)

def countCell (cell : String) : String := if cell.isEmpty then "-" else cell

def maxHosts : Nat := 3

def hostsCell (cell : String) : String :=
  let names := (cell.splitOn ",").filter fun n => !n.isEmpty
  if names.isEmpty then "-"
  else
    let shown := ", ".intercalate (names.take maxHosts)
    match names.length - maxHosts with
    | 0 => shown
    | more => shown ++ " +" ++ more.repr

end FlowRow

section

variable (humanBytes : Nat → String)

def FlowRow.bytesCell (cell : String) : String :=
  match readU64 cell with
  | some bytes => humanBytes bytes
  | none => "-"

/-- A row of the table as the window draws it. -/
def QueryTable.flowRow (table : QueryTable) (row : List String) : FlowRow where
  key := table.cellOr "key" row
  flows := FlowRow.countCell (table.cellOr "count" row)
  up := FlowRow.bytesCell humanBytes (table.cellOr "upload" row)
  down := FlowRow.bytesCell humanBytes (table.cellOr "download" row)
  hosts := FlowRow.hostsCell (table.cellOr "hosts" row)
  scope := table.scopeOf row
  count := table.figureOf "count" row

/-- `tick_rows`: what the window draws of the table, or the column that it misses. -/
def ConnectionsTick.tickRows (table : QueryTable) : Except String ConnectionsTick := do
  let _ ← columnIndex table "ts_us"
  let _ ← columnIndex table "verdict"
  let _ ← columnIndex table "key"
  let _ ← columnIndex table "count"
  let _ ← columnIndex table "upload"
  let _ ← columnIndex table "download"
  let _ ← columnIndex table "hosts"
  match table.rows with
  | [] => .ok .absent
  | first :: _ =>
    let ts := (parseI64 (table.cellOr "ts_us" first).toList).getD 0
    let rows := (table.rows.filter fun row => !(table.cellOr "key" row).isEmpty).map
      (table.flowRow humanBytes)
    if rows.isEmpty then .ok (.empty ts (table.cellOr "verdict" first))
    else .ok (.flows ts rows)

end

end NetObserver
