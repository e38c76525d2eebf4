import NetObserver.ConnectionsQuery
import NetObserver.CveSnapshots

/-! The named diagnoses: the statement each stands for, and how the record answers one. -/

namespace NetObserver

open Machine

inductive HistoryWindow where
  | at_ (tsUs : Int)
  | range (since until_ : Int)

inductive DiagnosticQuery where
  | why (tsUs : Int)
  | incidentContext
  | wedgeVsStarvation
  | gwDrops
  | gatewayRamp (dropTsUs windowUs : Int)
  | gaps
  | silences
  | neighbors (network : Option String)
  | vulns (network : Option String)
  | segments
  | history (network : String) (window : HistoryWindow)
  | topology (iface : Option String)
  | egressScan
  | egressDsts (scanTsUs : Int)
  | connections (groupBy : ConnectionsGroupBy)
  | airScan
  | airAps (scanTsUs : Int)
  | airSelfChannel
  | experiment (id : String)
  | cveLookup (product : String) (version : Option String)

/-- A statement with its parameters; the ones with a key or an interface in their text hold one
that was let through. -/
inductive PreparedSql where
  | verdictAt (tsUs : Int) (loadThreshold : F64)
  | incidentContext (loadThreshold : F64)
  | wedgeVsStarvation (loadThreshold : F64) (episodeGapUs : Int)
  | gwDrops
  | gatewayRamp (dropTsUs windowUs : Int)
  | observationGaps
  | silences
  | neighbors (network : Option String)
  | vulns (network : Option String)
  | segments
  | history (network : String) (window : HistoryWindow)
  | topology (iface : Option String)
  | egressLatestScan
  | egressDstsAt (scanTsUs : Int)
  | connections (groupBy : ConnectionsGroupBy)
  | airLatestScan
  | airApsAt (scanTsUs : Int)
  | airSelfChannel

def defaultStarvationLoad : F64 := .finite false 10

def defaultEpisodeGapUs : Int := 30000000

/-- `BadNetworkKey`. -/
def badNetworkKey (key : String) : String :=
  "not a segment key: " ++ key ++ " (expected a gateway MAC such as a4:83:e7:1b:2c:3d, or `unknown` for a segment whose gateway MAC was unreadable)"

/-- `BadIface`. -/
def badIface (iface : String) : String :=
  "not an interface name: " ++ iface ++ " (expected something like en0, en1 or utun3)"

def validIface (i : String) : Bool :=
  !i.isEmpty && i.utf8ByteSize ≤ 32 &&
    i.toList.all fun c =>
      c.isAlphanum || c == '.' || c == ':' || c == '_' || c == '-'

def validateNetworkKey (key : String) : Except String Unit :=
  if validNetworkKey key then .ok () else .error (badNetworkKey key)

def validateIface (iface : String) : Except String Unit :=
  if validIface iface then .ok () else .error (badIface iface)

/-- `validate` where there is something to validate. -/
def validateAny (validate : String → Except String Unit) : Option String → Except String Unit
  | none => .ok ()
  | some text => validate text

/-- `StoreError`: a read cut short at its deadline, or any other with the text it displays. -/
inductive ReadError where
  | interrupted (budgetNs : Nat)
  | other (text : String)

def describe : ReadError → String
  | .interrupted budgetNs =>
    "diagnosis exceeded " ++ (budgetNs / 1000000000).repr ++ " s and was interrupted"
  | .other text => "diagnosis failed: " ++ text

/-- The record as the diagnoses read it: `experiment` is the stored report of a window. -/
structure RecordReads where
  experiment : String → Except ReadError (Option String)
  queryPreparedWithin : PreparedSql → Nat → Except ReadError QueryTable

/-- `experiment_table_from_json`: `decode` reads a stored report. -/
def experimentTableFromJson (decode : String → Except String QueryTable) (json : String) :
    Except String QueryTable :=
  (decode json).mapError fun e => "stored experiment report is unreadable: " ++ e

/-- The statement of a diagnosis; none for the two that are not statements. -/
def DiagnosticQuery.statement (loadThreshold : F64) :
    DiagnosticQuery → Option (Except String PreparedSql)
  | why tsUs => some (.ok (.verdictAt tsUs loadThreshold))
  | incidentContext => some (.ok (.incidentContext loadThreshold))
  | wedgeVsStarvation => some (.ok (.wedgeVsStarvation loadThreshold defaultEpisodeGapUs))
  | gwDrops => some (.ok .gwDrops)
  | gatewayRamp dropTsUs windowUs => some (.ok (.gatewayRamp dropTsUs windowUs))
  | gaps => some (.ok .observationGaps)
  | silences => some (.ok .silences)
  | neighbors network =>
    some ((validateAny validateNetworkKey network).map fun _ => .neighbors network)
  | vulns network => some ((validateAny validateNetworkKey network).map fun _ => .vulns network)
  | segments => some (.ok .segments)
  | history network window =>
    some ((validateNetworkKey network).map fun _ => .history network window)
  | topology iface => some ((validateAny validateIface iface).map fun _ => .topology iface)
  | egressScan => some (.ok .egressLatestScan)
  | egressDsts scanTsUs => some (.ok (.egressDstsAt scanTsUs))
  | connections groupBy => some (.ok (.connections groupBy))
  | airScan => some (.ok .airLatestScan)
  | airAps scanTsUs => some (.ok (.airApsAt scanTsUs))
  | airSelfChannel => some (.ok .airSelfChannel)
  | experiment _ => none
  | cveLookup _ _ => none

def experimentNotFound (id : String) : String :=
  "experiment " ++ id ++ " not found: this daemon did not run it and the record holds no such window"

def experimentUnreadable (id e : String) : String := "experiment " ++ id ++ ": " ++ e

def runQuery (decode : String → Except String QueryTable) (store : RecordReads)
    (q : DiagnosticQuery) (loadThreshold : F64) (budgetNs : Nat) : Except String QueryTable :=
  match q.statement loadThreshold, q with
  | some built, _ => built.bind fun statement =>
    (store.queryPreparedWithin statement budgetNs).mapError describe
  | none, .experiment id =>
    match store.experiment id with
    | .error e => .error (describe e)
    | .ok (some json) => (experimentTableFromJson decode json).mapError (experimentUnreadable id)
    | .ok none => .error (experimentNotFound id)
  | none, _ => .error "CveLookup is not a store diagnosis and should never reach run_query"

end NetObserver
