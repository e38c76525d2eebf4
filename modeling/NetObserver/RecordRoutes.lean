import NetObserver.QueryMessages

/-! Where a read of the command line comes from: the daemon's socket or the file, decided once for
all the tables of one answer. -/

namespace NetObserver

open Machine

/-- How a round trip over the socket fails; `text` is what the error displays. -/
inductive SocketFailure where
  | notFound (text : String)
  | connectionRefused (text : String)
  | other (text : String)

def SocketFailure.text : SocketFailure → String
  | .notFound text | .connectionRefused text | .other text => text

def daemonNotRunning : SocketFailure → Bool
  | .notFound _ | .connectionRefused _ => true
  | .other _ => false

inductive Route where
  | live (table : QueryTable) (via : String)
  | offline (why : Option String) (locked : String)

/-- The rule: `--db` names the file, a daemon that answers is read, and the file is read in its
place only where there is no daemon, or one that cannot read the request. -/
def route (socket : Option String) (ask : String → Except SocketFailure QueryOutcome) :
    Except String Route :=
  match socket with
  | none => .ok (.offline none "--db was given, so the socket was not asked")
  | some socket =>
    let locked := "the socket at " ++ socket ++ " did not answer or could not decode the request"
    match ask socket with
    | .ok (.table table) => .ok (.live table socket)
    | .ok (.failed m) => .error ("net-observerd returned an error: " ++ m)
    | .ok (.unsupported m) =>
      let why := "net-observerd at " ++ socket ++ " cannot decode the request (" ++ m ++ ")"
      .ok (.offline (some why) locked)
    | .error e =>
      if daemonNotRunning e then
        .ok (.offline (some ("no daemon answered on " ++ socket ++ " (" ++ e.text ++ ")")) locked)
      else .error ("failed to query net-observerd over socket " ++ socket ++ ": " ++ e.text)

/-- One more read over a socket already committed to, after the daemon answered `header`; `shown`
is the request as the message prints it. -/
def askTable (header shown via : String) (answer : Except SocketFailure QueryOutcome) :
    Except String QueryTable :=
  match answer with
  | .error e => .error e.text
  | .ok (.table t) => .ok t
  | .ok (.failed m) => .error ("net-observerd returned an error: " ++ m)
  | .ok (.unsupported m) => .error ("net-observerd at " ++ via ++ " answered " ++ header ++
      " but cannot decode " ++ shown ++ " (" ++ m ++ ")")

/-- The instant of the header's one row, read back from its own answer. -/
def scanTsUs (scan : QueryTable) : Option Int :=
  (scan.columns.idxOf? "ts_us").bind fun i =>
    scan.rows.head?.bind fun row => row[i]?.bind fun text => parseI64 text.toList

def QueryTable.empty : QueryTable := ⟨[], []⟩

inductive AirRoute where
  | live (scan aps own : QueryTable) (via : String)
  | offline (why : Option String) (locked : String)

inductive EgressRoute where
  | live (scan dsts : QueryTable) (via : String)
  | offline (why : Option String) (locked : String)

/-- The answers of the socket, one round trip after another. -/
abbrev Asks := Nat → String → DiagnosticQuery → Except SocketFailure QueryOutcome

/-- The rows behind a header, and the round trips that took; without a scan none are asked for. -/
def pinnedRows (header : String) (shown : Int → String) (rows : Int → DiagnosticQuery) (ask : Asks)
    (via : String) (scan : QueryTable) : Except String (QueryTable × Nat) :=
  match scanTsUs scan with
  | some ts => (askTable header (shown ts) via (ask 1 via (rows ts))).map fun t => (t, 2)
  | none => .ok (.empty, 1)

def routeAir (socket : Option String) (ask : Asks) : Except String AirRoute :=
  (route socket fun s => ask 0 s .airScan).bind fun
    | .offline why locked => .ok (.offline why locked)
    | .live scan via =>
      (pinnedRows "AirScan" (fun ts => "AirAps \x7b scan_ts_us: " ++ toString ts ++ " \x7d") .airAps ask
          via scan).bind fun (aps, trips) =>
        (askTable "AirScan" "AirSelfChannel" via (ask trips via .airSelfChannel)).map fun own =>
          .live scan aps own via

def routeEgress (socket : Option String) (ask : Asks) : Except String EgressRoute :=
  (route socket fun s => ask 0 s .egressScan).bind fun
    | .offline why locked => .ok (.offline why locked)
    | .live scan via =>
      (pinnedRows "EgressScan" (fun ts => "EgressDsts \x7b scan_ts_us: " ++ toString ts ++ " \x7d")
          .egressDsts ask via scan).map fun (dsts, _) => .live scan dsts via

/-- The line before the destinations of a scan that could not capture. -/
def egressSkipNote (scan : QueryTable) : Option String :=
  (scan.columns.idxOf? "verdict").bind fun verdict =>
    scan.rows.head?.bind fun row =>
      if row[verdict]? ≠ some "SKIP" then none
      else
        let reason := (((scan.columns.idxOf? "reason").bind (row[·]?)).filter (!·.isEmpty)).getD
          "the capture could not run"
        some ("the latest egress scan could not capture (" ++ reason ++
          "); no destinations recorded — this is not \"nothing left the interface\"")

/-- Live is exactly what the daemon answered with a table. -/
theorem route_live {socket : Option String} {ask : String → Except SocketFailure QueryOutcome}
    {table : QueryTable} {via : String} (live : route socket ask = .ok (.live table via)) :
    socket = some via ∧ ask via = .ok (.table table) := by
  unfold route at live
  split at live
  next => cases live
  next socket =>
    split at live
    next table' answered =>
      cases live
      exact ⟨rfl, answered⟩
    next => cases live
    next => cases live
    next e _ =>
      split at live
      next => cases live
      next => cases live

/-- The file is read for `--db`, without a daemon, or past one that cannot read the request. -/
theorem route_offline {socket : Option String} {ask : String → Except SocketFailure QueryOutcome}
    {why : Option String} {locked : String}
    (offline : route socket ask = .ok (.offline why locked)) :
    socket = none ∨ ∃ s, socket = some s ∧
      ((∃ m, ask s = .ok (.unsupported m)) ∨
        ∃ e, ask s = .error e ∧ daemonNotRunning e = true) := by
  unfold route at offline
  split at offline
  next => exact .inl rfl
  next s =>
    refine .inr ⟨s, rfl, ?_⟩
    split at offline
    next => cases offline
    next => cases offline
    next m answered => exact .inl ⟨m, answered⟩
    next e failed =>
      split at offline
      next none => exact .inr ⟨e, failed, none⟩
      next => cases offline

theorem askTable_ok {header shown via : String} {answer : Except SocketFailure QueryOutcome}
    {t : QueryTable} (read : askTable header shown via answer = .ok t) :
    answer = .ok (.table t) := by
  unfold askTable at read
  split at read
  next => cases read
  next => cases read; rfl
  next => cases read
  next => cases read

theorem bind_eq_ok {ε α β : Type*} {x : Except ε α} {f : α → Except ε β} {b : β}
    (done : x.bind f = .ok b) : ∃ a, x = .ok a ∧ f a = .ok b := by
  cases x with
  | error e => cases done
  | ok a => exact ⟨a, rfl, done⟩

theorem map_eq_ok {ε α β : Type*} {x : Except ε α} {f : α → β} {b : β}
    (done : x.map f = .ok b) : ∃ a, x = .ok a ∧ f a = b := by
  cases x with
  | error e => cases done
  | ok a => exact ⟨a, rfl, Except.ok.inj done⟩

theorem pinnedRows_ok {header : String} {shown : Int → String} {rows : Int → DiagnosticQuery}
    {ask : Asks} {via : String} {scan t : QueryTable} {trips : Nat}
    (read : pinnedRows header shown rows ask via scan = .ok (t, trips)) :
    (scanTsUs scan = none ∧ t = .empty ∧ trips = 1) ∨
      ∃ ts, scanTsUs scan = some ts ∧ ask 1 via (rows ts) = .ok (.table t) ∧ trips = 2 := by
  unfold pinnedRows at read
  split at read
  next ts there =>
    obtain ⟨t', asked, is⟩ := map_eq_ok read
    cases is
    exact .inr ⟨ts, there, askTable_ok asked, rfl⟩
  next none =>
    cases read
    exact .inl ⟨none, rfl, rfl⟩

/-- A live answer is from the socket in all its tables. -/
theorem routeAir_live {socket : Option String} {ask : Asks} {scan aps own : QueryTable}
    {via : String} (live : routeAir socket ask = .ok (.live scan aps own via)) :
    socket = some via ∧ ask 0 via .airScan = .ok (.table scan) ∧
      ((scanTsUs scan = none ∧ aps = .empty ∧ ask 1 via .airSelfChannel = .ok (.table own)) ∨
        ∃ ts, scanTsUs scan = some ts ∧ ask 1 via (.airAps ts) = .ok (.table aps) ∧
          ask 2 via .airSelfChannel = .ok (.table own)) := by
  obtain ⟨r, routed, rest⟩ := bind_eq_ok live
  cases r with
  | offline why locked => cases rest
  | live scan' via' =>
    obtain ⟨⟨aps', trips⟩, pinned, rest⟩ := bind_eq_ok rest
    obtain ⟨own', asked, is⟩ := map_eq_ok rest
    cases is
    obtain ⟨here, header⟩ := route_live routed
    refine ⟨here, header, ?_⟩
    rcases pinnedRows_ok pinned with ⟨none, empty, one⟩ | ⟨ts, there, read, two⟩
    · exact .inl ⟨none, empty, one ▸ askTable_ok asked⟩
    · exact .inr ⟨ts, there, read, two ▸ askTable_ok asked⟩

theorem routeEgress_live {socket : Option String} {ask : Asks} {scan dsts : QueryTable}
    {via : String} (live : routeEgress socket ask = .ok (.live scan dsts via)) :
    socket = some via ∧ ask 0 via .egressScan = .ok (.table scan) ∧
      ((scanTsUs scan = none ∧ dsts = .empty) ∨
        ∃ ts, scanTsUs scan = some ts ∧ ask 1 via (.egressDsts ts) = .ok (.table dsts)) := by
  obtain ⟨r, routed, rest⟩ := bind_eq_ok live
  cases r with
  | offline why locked => cases rest
  | live scan' via' =>
    obtain ⟨⟨dsts', trips⟩, pinned, is⟩ := map_eq_ok rest
    cases is
    obtain ⟨here, header⟩ := route_live routed
    refine ⟨here, header, ?_⟩
    rcases pinnedRows_ok pinned with ⟨none, empty, _⟩ | ⟨ts, there, read, _⟩
    · exact .inl ⟨none, empty⟩
    · exact .inr ⟨ts, there, read⟩

end NetObserver
