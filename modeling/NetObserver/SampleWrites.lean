import NetObserver.EntityStore
import NetObserver.Retention

/-! Writing a sample to the store: the statements of each kind, and what a failed one leaves. -/

namespace NetObserver

open Transaction

/-- The tables that a sample is written to. -/
structure SampleStore where
  db : Database
  neighbor : List NeighborRow
  neighborService : List NeighborServiceRow

def AirSample.row (a : AirSample) : AirSampleRow :=
  ⟨a.tsUs, a.air, a.reason, min a.aps.length 2147483647⟩

/-- A row for each flow, or one without a flow. -/
def ConnectionsSample.tickRows (cs : ConnectionsSample) : List ConnectionSampleRow :=
  if cs.rows.isEmpty then [⟨cs.tsUs, cs.verdict, none⟩]
  else cs.rows.map fun r => ⟨cs.tsUs, cs.verdict, some r⟩

namespace SampleStore

variable (t : SampleStore)

def insertLinkSample (l : LinkSample) : SampleStore :=
  { t with db.record.linkSample := t.db.record.linkSample ++ [l] }

def insertProxySample (p : ProxySample) : SampleStore :=
  { t with db.record.proxySample := t.db.record.proxySample ++ [p] }

def insertDnsSample (d : DnsSample) : SampleStore :=
  { t with db.record.dnsSample := t.db.record.dnsSample ++ [d] }

def insertRouteEvent (r : RouteEvent) : SampleStore :=
  { t with db.record.routeEvent := t.db.record.routeEvent ++ [r] }

def insertHostSample (h : HostSample) : SampleStore :=
  { t with db.record.hostSample := t.db.record.hostSample ++ [h] }

def insertWifiSample (w : WifiSample) : SampleStore :=
  { t with db.wifiSample := t.db.wifiSample ++ [w] }

def insertAirSample (r : AirSampleRow) : SampleStore :=
  { t with db.airSample := t.db.airSample ++ [r] }

def insertAirAp (r : AirApRow) : SampleStore := { t with db.airAp := t.db.airAp ++ [r] }

def insertNeighborSample (r : NeighborSampleRow) : SampleStore :=
  { t with db.neighborSample := t.db.neighborSample ++ [r] }

def insertNeighbor (r : NeighborRow) : SampleStore :=
  { t with neighbor := Keyed.upsert NeighborRow.key NeighborRow.merge t.neighbor r }

def insertNeighborService (r : NeighborServiceRow) : SampleStore :=
  { t with neighborService :=
      Keyed.upsert NeighborServiceRow.key NeighborServiceRow.merge t.neighborService r }

def insertConnectionSample (r : ConnectionSampleRow) : SampleStore :=
  { t with db.connectionSample := t.db.connectionSample ++ [r] }

def insertSingboxLogSample (r : SingboxLogSample) : SampleStore :=
  { t with db.singboxLogSample := t.db.singboxLogSample ++ [r] }

def insertPortalSample (p : PortalSample) : SampleStore :=
  { t with db.portalSample := t.db.portalSample ++ [p] }

end SampleStore

def AirSample.apStatements (a : AirSample) : List (SampleStore → SampleStore) :=
  a.aps.map fun ap t => t.insertAirAp ⟨a.tsUs, ap⟩

def NeighborsSample.neighborStatements (n : NeighborsSample) : List (SampleStore → SampleStore) :=
  n.neighbors.map fun nb t => t.insertNeighbor (n.neighborRow nb)

def NeighborsSample.serviceStatements (n : NeighborsSample) : List (SampleStore → SampleStore) :=
  n.services.map fun svc t => t.insertNeighborService (n.serviceRow svc)

/-- The statements of a sample, in their order. -/
def Sample.statements : Sample → List (SampleStore → SampleStore)
  | .link l => [fun t => t.insertLinkSample l]
  | .proxy p => [fun t => t.insertProxySample p]
  | .dns d => [fun t => t.insertDnsSample d]
  | .route r => [fun t => t.insertRouteEvent r]
  | .host h => [fun t => t.insertHostSample h]
  | .wifi w => [fun t => t.insertWifiSample w]
  | .air a => (fun t => t.insertAirSample a.row) :: a.apStatements
  | .neighbors n => (fun t => t.insertNeighborSample n.sampleRow) ::
      (n.neighborStatements ++ n.serviceStatements)
  | .connections cs => cs.tickRows.map fun r t => t.insertConnectionSample r
  | .singboxLog r => [fun t => t.insertSingboxLogSample r]
  | .portal p => [fun t => t.insertPortalSample p]

/-- `write_sample`: the statements of a tick of flows, with the begin and the commit around them,
are one transaction; those of any other kind commit each for itself. `faults` says which call of the
database fails. -/
def writeSample (faults : Nat → Option StoreError) (s : Sample) (t : SampleStore) :
    SampleStore × Except StoreError Unit :=
  match s with
  | .connections _ =>
    transact (faults 0) (statements faults 1 s.statements) (faults (s.statements.length + 1)) t
  | _ => runEach faults 0 s.statements t

/-- The store with the sample whole in it. -/
def SampleStore.written (t : SampleStore) (s : Sample) : SampleStore := applied s.statements t

/-- What a sighting brings whatever is known already: a name only if it has one. -/
def NeighborRow.Carries (r last : NeighborRow) : Prop :=
  r.ip = last.ip ∧ r.iface = last.iface ∧ r.source = last.source ∧
    r.lastSeenUs = last.lastSeenUs ∧ ∀ name, last.hostname = some name → r.hostname = some name

def NeighborServiceRow.Carries (r last : NeighborServiceRow) : Prop :=
  r.kind = last.kind ∧ r.lastSeenUs = last.lastSeenUs ∧
    (∀ ip, last.ip = some ip → r.ip = some ip) ∧
    ∀ detail, last.detail = some detail → r.detail = some detail

/-- Every row of the sample is in the store: the newest of their table, and for an entity what the
last sighting of its key brought. -/
def SampleStore.HasRows (t : SampleStore) : Sample → Prop
  | .link l => [l] <:+ t.db.record.linkSample
  | .proxy p => [p] <:+ t.db.record.proxySample
  | .dns d => [d] <:+ t.db.record.dnsSample
  | .route r => [r] <:+ t.db.record.routeEvent
  | .host h => [h] <:+ t.db.record.hostSample
  | .wifi w => [w] <:+ t.db.wifiSample
  | .air a => [a.row] <:+ t.db.airSample ∧ a.aps.map (AirApRow.mk a.tsUs) <:+ t.db.airAp
  | .neighbors n => [n.sampleRow] <:+ t.db.neighborSample ∧
      neighborTable.Written NeighborRow.Carries (n.neighbors.map n.neighborRow) t.neighbor ∧
      neighborServiceTable.Written NeighborServiceRow.Carries (n.services.map n.serviceRow)
        t.neighborService
  | .connections cs => cs.tickRows <:+ t.db.connectionSample
  | .singboxLog r => [r] <:+ t.db.singboxLogSample
  | .portal p => [p] <:+ t.db.portalSample

structure AllOrNothing (faults : Nat → Option StoreError) (s : Sample) (t : SampleStore) :
    Prop where
  nothing : ∀ e, (writeSample faults s t).2 = .error e → (writeSample faults s t).1 = t
  all_ : (writeSample faults s t).2 = .ok () → (writeSample faults s t).1.HasRows s

/-- The statements behind the first that no transaction ties to it. -/
def Sample.looseStatements : Sample → Nat
  | .air a => a.aps.length
  | .neighbors n => n.neighbors.length + n.services.length
  | _ => 0

section

variable {faults : Nat → Option StoreError} {t : SampleStore}

theorem AirSample.apStatements_keep {a : AirSample} {act : SampleStore → SampleStore}
    (mem : act ∈ a.apStatements) (t : SampleStore) : (act t).db.airSample = t.db.airSample := by
  obtain ⟨ap, -, rfl⟩ := List.mem_map.mp mem
  rfl

theorem AirSample.applied_apStatements (a : AirSample) (t : SampleStore) :
    (applied a.apStatements t).db.airAp = t.db.airAp ++ a.aps.map (AirApRow.mk a.tsUs) :=
  applied_appends (fun t => t.db.airAp) (AirApRow.mk a.tsUs) (fun _ _ => rfl) a.aps t

namespace NeighborsSample

variable {n : NeighborsSample} {act : SampleStore → SampleStore}

theorem neighborStatements_keep (mem : act ∈ n.neighborStatements) (t : SampleStore) :
    (act t).db = t.db ∧ (act t).neighborService = t.neighborService := by
  obtain ⟨nb, -, rfl⟩ := List.mem_map.mp mem
  exact ⟨rfl, rfl⟩

theorem serviceStatements_keep (mem : act ∈ n.serviceStatements) (t : SampleStore) :
    (act t).db = t.db ∧ (act t).neighbor = t.neighbor := by
  obtain ⟨svc, -, rfl⟩ := List.mem_map.mp mem
  exact ⟨rfl, rfl⟩

theorem applied_neighborStatements (n : NeighborsSample) (t : SampleStore) :
    (applied n.neighborStatements t).neighbor =
      neighborTable.writes t.neighbor (n.neighbors.map n.neighborRow) := by
  rw [Lifetimes.writes, List.foldl_map]
  exact applied_map SampleStore.neighbor _ (fun _ _ => rfl) n.neighbors t

theorem applied_serviceStatements (n : NeighborsSample) (t : SampleStore) :
    (applied n.serviceStatements t).neighborService =
      neighborServiceTable.writes t.neighborService (n.services.map n.serviceRow) := by
  rw [Lifetimes.writes, List.foldl_map]
  exact applied_map SampleStore.neighborService _ (fun _ _ => rfl) n.services t

end NeighborsSample

theorem ConnectionsSample.applied_rows (rows : List ConnectionSampleRow) (t : SampleStore) :
    (applied (rows.map fun r (t : SampleStore) => t.insertConnectionSample r) t).db.connectionSample =
      t.db.connectionSample ++ rows := by
  have appended := applied_appends (fun t : SampleStore => t.db.connectionSample) id
    (fun r t => (rfl : (t.insertConnectionSample r).db.connectionSample = _)) rows t
  rw [List.map_id] at appended
  exact appended

theorem NeighborRow.carries_merge (old new : NeighborRow) : (old.merge new).Carries new := by
  refine ⟨rfl, rfl, rfl, rfl, fun name own => ?_⟩
  change new.hostname.or old.hostname = some name
  rw [own, Option.some_or]

theorem NeighborServiceRow.carries_merge (old new : NeighborServiceRow) :
    (old.merge new).Carries new := by
  refine ⟨rfl, rfl, fun ip own => ?_, fun detail own => ?_⟩
  · change new.ip.or old.ip = some ip
    rw [own, Option.some_or]
  · change new.detail.or old.detail = some detail
    rw [own, Option.some_or]

theorem hasRows_air (t : SampleStore) (a : AirSample) : (t.written (.air a)).HasRows (.air a) := by
  unfold SampleStore.written Sample.statements SampleStore.HasRows
  rw [applied_cons, a.applied_apStatements]
  refine ⟨?_, List.suffix_append _ _⟩
  rw [applied_keeps (fun t => t.db.airSample) fun act mem => AirSample.apStatements_keep mem]
  exact List.suffix_append _ _

theorem hasRows_neighbors (t : SampleStore) (n : NeighborsSample) :
    (t.written (.neighbors n)).HasRows (.neighbors n) := by
  have first := fun act (mem : act ∈ n.neighborStatements) t =>
    NeighborsSample.neighborStatements_keep mem t
  have second := fun act (mem : act ∈ n.serviceStatements) t =>
    NeighborsSample.serviceStatements_keep mem t
  unfold SampleStore.written Sample.statements SampleStore.HasRows
  rw [applied_cons, applied_append]
  refine ⟨?_, ?_, ?_⟩
  · rw [applied_keeps SampleStore.db fun act mem t => (second act mem t).1,
      applied_keeps SampleStore.db fun act mem t => (first act mem t).1]
    exact List.suffix_append _ _
  · rw [applied_keeps SampleStore.neighbor fun act mem t => (second act mem t).2,
      n.applied_neighborStatements]
    apply Lifetimes.written_writes
    · intro r
      exact ⟨rfl, rfl, rfl, rfl, fun _ own => own⟩
    · exact NeighborRow.carries_merge
  · rw [n.applied_serviceStatements]
    apply Lifetimes.written_writes
    · intro r
      exact ⟨rfl, rfl, fun _ own => own, fun _ own => own⟩
    · exact NeighborServiceRow.carries_merge

theorem hasRows_written (t : SampleStore) (s : Sample) : (t.written s).HasRows s := by
  cases s with
  | air a => exact hasRows_air t a
  | neighbors n => exact hasRows_neighbors t n
  | connections cs =>
    have rows := ConnectionsSample.applied_rows cs.tickRows t
    unfold SampleStore.written Sample.statements SampleStore.HasRows
    rw [rows]
    exact List.suffix_append _ _
  | _ => exact List.suffix_append _ _

/-- A sample that is not dropped is whole in the store. -/
theorem writeSample_ok {s : Sample} (done : (writeSample faults s t).2 = .ok ()) :
    (writeSample faults s t).1 = t.written s := by
  cases s with
  | connections cs => exact statements_ok (transact_ok done)
  | _ => exact runEach_ok done

theorem append_ne_self {α : Type} (rows : List α) (r : α) : rows ++ [r] ≠ rows := by
  intro same
  have lengths := congrArg List.length same
  rw [List.length_append, List.length_singleton] at lengths
  omega

/-- Statements that commit each for itself, the first a row of a table that no other is of. -/
theorem restores_iff {α : Type} (table : SampleStore → List α) {first : SampleStore → SampleStore}
    {r : α} {rest : List (SampleStore → SampleStore)} (shows : table (first t) = table t ++ [r])
    (keeps : ∀ act ∈ rest, ∀ t, table (act t) = table t) :
    (∀ e, (runEach faults 0 (first :: rest) t).2 = .error e →
        (runEach faults 0 (first :: rest) t).1 = t) ↔
      faults 0 ≠ none ∨ ∀ k < rest.length, faults (k + 1) = none := by
  have other : table (first t) ≠ table t := by
    rw [shows]
    exact append_ne_self _ r
  rw [runEach_restores_iff table other keeps]
  simp only [Nat.zero_add, Nat.add_comm 1]

theorem nothing_iff (faults : Nat → Option StoreError) (s : Sample) (t : SampleStore) :
    (∀ e, (writeSample faults s t).2 = .error e → (writeSample faults s t).1 = t) ↔
      faults 0 ≠ none ∨ ∀ k < s.looseStatements, faults (k + 1) = none := by
  have tied : ∀ k < 0, faults (k + 1) = none := by
    intro k low
    omega
  cases s with
  | air a =>
    have loose : (Sample.air a).looseStatements = a.apStatements.length := (List.length_map _).symm
    rw [loose]
    exact restores_iff (fun t => t.db.airSample) rfl fun act mem => AirSample.apStatements_keep mem
  | neighbors n =>
    have loose : (Sample.neighbors n).looseStatements =
        (n.neighborStatements ++ n.serviceStatements).length := by
      rw [List.length_append, NeighborsSample.neighborStatements, List.length_map,
        NeighborsSample.serviceStatements, List.length_map]
      rfl
    rw [loose]
    refine restores_iff (fun t => t.db.neighborSample) rfl fun act mem t => ?_
    rcases List.mem_append.mp mem with first | second
    · exact congrArg Database.neighborSample (NeighborsSample.neighborStatements_keep first t).1
    · exact congrArg Database.neighborSample (NeighborsSample.serviceStatements_keep second t).1
  | connections cs => exact ⟨fun _ => .inr tied, fun _ e failed => transact_error failed⟩
  | _ => exact ⟨fun _ => .inr tied, fun _ e failed => runEach_single failed⟩

/-- A sample is written whole or not at all if and only if the first statement fails or none behind
it does that no transaction ties to it. -/
theorem allOrNothing_iff (faults : Nat → Option StoreError) (s : Sample) (t : SampleStore) :
    AllOrNothing faults s t ↔
      faults 0 ≠ none ∨ ∀ k < s.looseStatements, faults (k + 1) = none := by
  rw [← nothing_iff faults s t]
  constructor
  · intro law
    exact law.nothing
  · intro restores
    refine ⟨restores, fun done => ?_⟩
    rw [writeSample_ok done]
    exact hasRows_written t s

/-- The disk is full when the one access point behind the row of the scan is written. -/
theorem half_scan_left_behind : ¬ AllOrNothing
    (fun n => if n = 1 then some (.database "No space left on device") else none)
    (.air ⟨0, .ok, none, [⟨some 6, none, none, none, none, some (-60), none⟩]⟩)
    ⟨⟨⟨[], [], [], [], [], [], []⟩, [], [], [], [], [], [], [], [], []⟩, [], []⟩ := by
  intro law
  have unchanged := congrArg (fun t => t.db.airSample.length) (law.nothing _ rfl)
  exact absurd unchanged (by decide)

/-- The pipeline only warns of a sample that could not be written. -/
def recordSamples (t : SampleStore) (calls : List ((Nat → Option StoreError) × Sample)) :
    SampleStore :=
  calls.foldl (fun t c => (writeSample c.1 c.2 t).1) t

/-- Which samples of a run are dropped from the database. -/
def keptSamples (t : SampleStore) : List ((Nat → Option StoreError) × Sample) → List Sample
  | [] => []
  | c :: calls =>
    let after := writeSample c.1 c.2 t
    match after.2 with
    | .ok _ => c.2 :: keptSamples after.1 calls
    | .error _ => keptSamples after.1 calls

/-- In a run of which every write meets the condition the dropped samples leave no trace. -/
theorem recordSamples_kept {calls : List ((Nat → Option StoreError) × Sample)}
    (whole : ∀ c ∈ calls, c.1 0 ≠ none ∨ ∀ k < c.2.looseStatements, c.1 (k + 1) = none)
    (t : SampleStore) :
    recordSamples t calls = (keptSamples t calls).foldl SampleStore.written t := by
  induction calls generalizing t with
  | nil => rfl
  | cons c calls ih =>
    have own := (allOrNothing_iff c.1 c.2 t).mpr (whole c List.mem_cons_self)
    have rest := ih fun other mem => whole other (List.mem_cons_of_mem c mem)
    unfold recordSamples at rest ⊢
    unfold keptSamples
    rw [List.foldl_cons, rest]
    dsimp only
    cases ended : (writeSample c.1 c.2 t).2 with
    | ok =>
      rw [writeSample_ok ended]
      rfl
    | error e => rw [own.nothing e ended]

/-! The record that a startup closes incidents by, of which a sample is only its instants -/

/-- The record holds the instants of the store's sample tables. -/
def IncidentRecord.Mirrors (r : IncidentRecord) (db : Database) : Prop :=
  ∀ table, r.stamps table = db.stamps table

/-- What a statement adds to the sample tables. -/
def Stamps (act : SampleStore → SampleStore) (rows : List SampleRow) : Prop :=
  ∀ t table, (act t).db.stamps table =
    t.db.stamps table ++ rows.filterMap fun row => if row.1 = table then some row.2 else none

theorem Stamps.cons {act : SampleStore → SampleStore} {acts : List (SampleStore → SampleStore)}
    {rows more : List SampleRow} (first : Stamps act rows) (rest : Stamps (applied acts) more) :
    Stamps (applied (act :: acts)) (rows ++ more) := by
  intro t table
  rw [applied_cons, rest, first, List.filterMap_append, List.append_assoc]

theorem Stamps.none : Stamps (applied []) [] := by
  intro t table
  exact (List.append_nil _).symm

/-- Statements and the rows that each brings, as many of them as were done. -/
theorem Stamps.take {acts : List (SampleStore → SampleStore)} {groups : List (List SampleRow)}
    (each : List.Forall₂ Stamps acts groups) (landed : Nat) :
    Stamps (applied (acts.take landed)) (groups.take landed).flatten := by
  induction each generalizing landed with
  | nil =>
    rw [List.take_nil, List.take_nil]
    exact .none
  | cons first _ ih =>
    cases landed with
    | zero => exact .none
    | succ landed => exact first.cons (ih landed)

theorem Stamps.single {act : SampleStore → SampleStore} {own : SampleTable} {tsUs : Int}
    (shows : ∀ t, (act t).db.stamps own = t.db.stamps own ++ [tsUs])
    (keeps : ∀ t table, table ≠ own → (act t).db.stamps table = t.db.stamps table) :
    Stamps act [(own, tsUs)] := by
  intro t table
  rw [List.filterMap_cons, List.filterMap_nil]
  by_cases same : own = table
  · subst same
    rw [if_pos rfl]
    exact shows t
  · rw [if_neg same, keeps t table (Ne.symm same)]
    exact (List.append_nil _).symm

theorem Stamps.all {acts : List (SampleStore → SampleStore)} {groups : List (List SampleRow)}
    (each : List.Forall₂ Stamps acts groups) : Stamps (applied acts) groups.flatten := by
  have rows := Stamps.take each acts.length
  rw [List.take_length, each.length_eq, List.take_length] at rows
  exact rows

/-- The instants that a write of the sample leaves are those of its first groups of rows. -/
def Landed (faults : Nat → Option StoreError) (s : Sample) (t : SampleStore) : Prop :=
  ∃ landed, ∀ table, (writeSample faults s t).1.db.stamps table = t.db.stamps table ++
    (s.inserts.take landed).flatten.filterMap fun row => if row.1 = table then some row.2 else none

theorem landed_of_each {s : Sample} (loose : writeSample faults s t = runEach faults 0 s.statements t)
    (each : List.Forall₂ Stamps s.statements s.inserts) : Landed faults s t := by
  obtain ⟨landed, -, eq⟩ := runEach_landed faults 0 s.statements t
  refine ⟨landed, fun table => ?_⟩
  rw [loose, eq]
  exact Stamps.take each landed t table

theorem landed_air (a : AirSample) : Landed faults (.air a) t := by
  have aps : List.Forall₂ Stamps a.apStatements (a.aps.map fun _ => [(.airAp, a.tsUs)]) := by
    unfold AirSample.apStatements
    rw [List.forall₂_map_left_iff, List.forall₂_map_right_iff, List.forall₂_same]
    intro ap _
    refine .single (fun t => List.map_append) fun t table apart => ?_
    cases table <;> first | rfl | exact absurd rfl apart
  refine landed_of_each rfl (.cons ?_ aps)
  refine .single (fun t => List.map_append) fun t table apart => ?_
  cases table <;> first | rfl | exact absurd rfl apart

/-- The upserts of a reading bring nothing to the sample tables. -/
theorem landed_neighbors (n : NeighborsSample) : Landed faults (.neighbors n) t := by
  have header : Stamps (fun t => t.insertNeighborSample n.sampleRow) [(.neighborSample, n.tsUs)] := by
    refine .single (fun t => List.map_append) fun t table apart => ?_
    cases table <;> first | rfl | exact absurd rfl apart
  have keeps : ∀ act ∈ n.neighborStatements ++ n.serviceStatements, ∀ t, (act t).db = t.db := by
    intro act mem t
    rcases List.mem_append.mp mem with first | second
    · exact (NeighborsSample.neighborStatements_keep first t).1
    · exact (NeighborsSample.serviceStatements_keep second t).1
  obtain ⟨landed, -, eq⟩ := runEach_landed faults 0 (Sample.neighbors n).statements t
  change (writeSample faults (.neighbors n) t).1 = _ at eq
  cases landed with
  | zero =>
    refine ⟨0, fun table => ?_⟩
    rw [eq]
    exact (List.append_nil _).symm
  | succ landed =>
    refine ⟨1, fun table => ?_⟩
    unfold Sample.statements at eq
    have unmoved := applied_keeps (s := t.insertNeighborSample n.sampleRow) SampleStore.db
      fun act mem => keeps act (List.mem_of_mem_take (i := landed) mem)
    rw [eq, List.take_succ_cons, applied_cons, unmoved]
    exact header t table

theorem landed_connections (cs : ConnectionsSample) : Landed faults (.connections cs) t := by
  cases ended : (writeSample faults (.connections cs) t).2 with
  | error e =>
    have unchanged : (writeSample faults (.connections cs) t).1 = t := transact_error ended
    refine ⟨0, fun table => ?_⟩
    rw [unchanged]
    exact (List.append_nil _).symm
  | ok =>
    refine ⟨1, fun table => ?_⟩
    have each : List.Forall₂ Stamps (Sample.connections cs).statements
        (cs.tickRows.map fun r => [(.connectionSample, r.tsUs)]) := by
      unfold Sample.statements
      rw [List.forall₂_map_left_iff, List.forall₂_map_right_iff, List.forall₂_same]
      intro r _
      refine .single (fun t => List.map_append) fun t table apart => ?_
      cases table <;> first | rfl | exact absurd rfl apart
    have group : (cs.tickRows.map fun r => [(SampleTable.connectionSample, r.tsUs)]).flatten =
        ((Sample.connections cs).inserts.take 1).flatten := by
      rw [← List.flatMap_def, ← List.map_eq_flatMap (f := fun r => (_, ConnectionSampleRow.tsUs r))]
      unfold ConnectionsSample.tickRows Sample.inserts
      dsimp only
      rw [List.take_one, List.head?_cons, Option.toList_some, List.flatten_singleton]
      by_cases none_ : cs.rows.isEmpty = true
      · rw [if_pos none_, if_pos none_]
        rfl
      · rw [if_neg none_, if_neg none_, List.map_map]
        rfl
    rw [writeSample_ok ended, SampleStore.written, Stamps.all each t table, group]

theorem landed_writeSample (faults : Nat → Option StoreError) (s : Sample) (t : SampleStore) :
    Landed faults s t := by
  cases s with
  | air a => exact landed_air a
  | neighbors n => exact landed_neighbors n
  | connections cs => exact landed_connections cs
  | _ =>
    refine landed_of_each rfl (.cons ?_ .nil)
    refine .single (fun t => List.map_append) fun t table apart => ?_
    cases table <;> first | rfl | exact absurd rfl apart

/-- A write of the store is one of the record, some of whose statements are done. -/
theorem mirrors_writeSample {r : IncidentRecord} (same : r.Mirrors t.db)
    (faults : Nat → Option StoreError) (s : Sample) :
    ∃ landed, (r.writeSample s landed).Mirrors (writeSample faults s t).1.db := by
  obtain ⟨landed, eq⟩ := landed_writeSample faults s t
  refine ⟨landed, fun table => ?_⟩
  rw [eq, ← same table]
  exact List.filterMap_append

end

end NetObserver
