import NetObserver.ConnectionsFold
import NetObserver.QueryTable
import Mathlib.Data.String.Basic

/-! The newest tick of the live flows, grouped as the operator asks. -/

namespace NetObserver

inductive ConnectionsGroupBy where
  | host
  | ip
  | ipPort
  | process
  | processHost
deriving DecidableEq

def ConnectionScope.asStr : ConnectionScope → String
  | .internal => "internal"
  | .lan => "lan"
  | .external => "external"

def ConnectionsVerdict.token : ConnectionsVerdict → String
  | .ok => "OK"
  | .skip => "SKIP"

/-- A row of the stored tick that is a flow: when it was seen, and the tick's verdict. -/
structure TickFlow where
  tsUs : Int
  verdict : ConnectionsVerdict
  row : ConnectionRow

/-- The rows with the latest time. -/
def connectionTick (connectionSample : List ConnectionSampleRow) : List ConnectionSampleRow :=
  match (connectionSample.map ConnectionSampleRow.tsUs).max? with
  | none => []
  | some newest => connectionSample.filter fun r => r.tsUs = newest

def ConnectionSampleRow.flow (r : ConnectionSampleRow) : Option TickFlow :=
  r.row.map fun row => ⟨r.tsUs, r.verdict, row⟩

namespace ConnectionsGroupBy

/-- The name that a flow is grouped under; what is not known gives way to the next best fact. -/
def keyOf : ConnectionsGroupBy → ConnectionRow → String
  | host, r => (r.host <|> r.dstIp).getD "-"
  | processHost, r => (r.host <|> r.dstIp).getD "-"
  | ip, r => (r.dstIp <|> r.host).getD "-"
  | ipPort, r =>
    let address :=
      match r.dstIp with
      | some dstIp => if dstIp.toList.contains ':' then "[" ++ dstIp ++ "]" else dstIp
      | none => r.host.getD "-"
    address ++ ":" ++ (r.dstPort.map Nat.repr).getD "-"
  | process, r => r.process.getD "-"

/-- The terms of the `GROUP BY`: `process` is the column as it is stored, not the one answered. -/
structure GroupKey where
  tsUs : Int
  verdict : ConnectionsVerdict
  key : String
  process : Option String
  scope : ConnectionScope
deriving DecidableEq

variable (groupBy : ConnectionsGroupBy)

def groupKey (f : TickFlow) : GroupKey where
  tsUs := f.tsUs
  verdict := f.verdict
  key := groupBy.keyOf f.row
  process := if groupBy = processHost then f.row.process else none
  scope := f.row.scope

def columns : List String :=
  ["ts_us", "verdict", "key"] ++ (if groupBy = processHost then ["process"] else []) ++
    ["iface", "scope", "count", "upload", "download", "hosts"]

end ConnectionsGroupBy

/-- The interface of all the flows: none when one of them has none, or two of them differ. -/
def commonIface (flows : List TickFlow) : Option String :=
  let named := flows.filterMap fun f => f.row.iface
  if named.dedup.length = 1 ∧ named.length = flows.length then named.max? else none

/-- The distinct names of the flows, in their order. -/
def hostNames (flows : List TickFlow) : Option String :=
  let names := (flows.filterMap fun f => f.row.host).dedup.mergeSort
  if names.isEmpty then none else some (",".intercalate names)

/-- A row of the answer; of a tick without flows there is one with nothing behind its verdict. -/
structure AnsweredGroup where
  tsUs : Int
  verdict : ConnectionsVerdict
  key : Option String
  process : Option String
  iface : Option String
  scope : Option ConnectionScope
  count : Option Nat
  upload : Option Nat
  download : Option Nat
  hosts : Option String

namespace AnsweredGroup

def ofGroup (group : ConnectionsGroupBy.GroupKey × List TickFlow) : AnsweredGroup where
  tsUs := group.1.tsUs
  verdict := group.1.verdict
  key := some group.1.key
  process := some (group.1.process.getD "-")
  iface := commonIface group.2
  scope := some group.1.scope
  count := some (group.2.map fun f => f.row.count).sum
  upload := some (group.2.map fun f => f.row.upload).sum
  download := some (group.2.map fun f => f.row.download).sum
  hosts := hostNames group.2

/-- The row of a tick that listed nothing. -/
def marker (r : ConnectionSampleRow) : AnsweredGroup :=
  ⟨r.tsUs, r.verdict, none, none, none, none, none, none, none, none⟩

def nullsLast {α : Type} (cmp : α → α → Ordering) : Option α → Option α → Ordering
  | some a, some b => cmp a b
  | some _, none => .lt
  | none, some _ => .gt
  | none, none => .eq

/-- `ORDER BY count DESC NULLS LAST, key, scope`. -/
def order (a b : AnsweredGroup) : Ordering :=
  (nullsLast (fun m n => compare n m) a.count b.count).then
    ((nullsLast compare a.key b.key).then
      (nullsLast compare (a.scope.map ConnectionScope.asStr) (b.scope.map ConnectionScope.asStr)))

def cells (groupBy : ConnectionsGroupBy) (a : AnsweredGroup) : List String :=
  [toString a.tsUs, a.verdict.token, a.key.getD ""] ++
    (if groupBy = .processHost then [a.process.getD ""] else []) ++
    [a.iface.getD "", (a.scope.map ConnectionScope.asStr).getD "",
      (a.count.map Nat.repr).getD "", (a.upload.map Nat.repr).getD "",
      (a.download.map Nat.repr).getD "", a.hosts.getD ""]

end AnsweredGroup

def answeredGroups (groupBy : ConnectionsGroupBy) (tick : List ConnectionSampleRow) :
    List AnsweredGroup :=
  let groups := Grouped.groupsOf groupBy.groupKey (tick.filterMap ConnectionSampleRow.flow)
  let markers := tick.filter fun r => r.row.isNone
  (groups.map AnsweredGroup.ofGroup ++ markers.map AnsweredGroup.marker).mergeSort
    fun a b => (AnsweredGroup.order a b).isLE

/-- The answer of `connections_sql` over the stored ticks. -/
def connectionsSql (groupBy : ConnectionsGroupBy)
    (connectionSample : List ConnectionSampleRow) : QueryTable :=
  ⟨groupBy.columns,
    (answeredGroups groupBy (connectionTick connectionSample)).map (AnsweredGroup.cells groupBy)⟩

end NetObserver
