import NetObserver.QueryMessages

/-! The reply to a named diagnosis, and what a client takes it for. -/

namespace NetObserver

/-- A daemon as one query finds it, with what it calls outside itself. `finishedReport` is the
report a finished window is remembered with, and `taskFailed` why the blocking task would not come
back. -/
structure QueryServer where
  experiments : Experiments
  finishedReport : String → QueryTable
  store : RecordReads
  scanner : Option SystemScanner
  queryBusy : Bool
  taskFailed : Option String
  loadFromDir : String → Except String VulnDb
  decode : String → Except String QueryTable
  decimal : ℚ → String
  localInstant : Int → String

def queryBusyText : String := "a diagnosis is already running; retry"

def queryDeadlineNs : Nat := 30000000000

namespace QueryServer

def experimentInMemory (srv : QueryServer) (id : String) : Option Response :=
  (srv.experiments.lookup id).map fun
    | .running endsAtUs => .error (experimentRunningMessage srv.localInstant id endsAtUs)
    | .finished => .table (srv.finishedReport id)

def queryStore (srv : QueryServer) (q : DiagnosticQuery) : Response :=
  if srv.queryBusy then .error queryBusyText
  else
    match srv.taskFailed with
    | some e => .error ("diagnosis task failed: " ++ e)
    | none =>
      match runQuery srv.decode srv.store q defaultStarvationLoad queryDeadlineNs with
      | .ok t => .table t
      | .error message => .error message

def cveLookupResponse (srv : QueryServer) (product : String) (version : Option String) :
    Response :=
  match srv.scanner with
  | none => .error "neighbour scanning not available"
  | some scanner =>
    match scanner.cveLookup srv.loadFromDir product version with
    | .found list => .table (cveLookupTable srv.decimal list)
    | .snapshotUnavailable note => .error note

/-- The arms of `handle_conn` for a query. -/
def handleQuery (srv : QueryServer) : DiagnosticQuery → Response
  | .experiment id => (srv.experimentInMemory id).getD (srv.queryStore (.experiment id))
  | .cveLookup product version => srv.cveLookupResponse product version
  | q => srv.queryStore q

/-- The one query at a time got through, and its task came back. -/
def Free (srv : QueryServer) : Prop := srv.queryBusy = false ∧ srv.taskFailed = none

/-- The diagnosis ran, and this is its table. -/
inductive Ran (srv : QueryServer) : DiagnosticQuery → QueryTable → Prop
  | remembered {id : String} (held : srv.experiments.lookup id = some .finished) :
    Ran srv (.experiment id) (srv.finishedReport id)
  | recorded {id json : String} {t : QueryTable} (absent : srv.experiments.lookup id = none)
    (free : srv.Free) (stored : srv.store.experiment id = .ok (some json))
    (read : srv.decode json = .ok t) : Ran srv (.experiment id) t
  | looked {product : String} {version : Option String} {scanner : SystemScanner} {db : VulnDb}
    (held : srv.scanner = some scanner) (ready : scanner.snapshot srv.loadFromDir = .ready db) :
    Ran srv (.cveLookup product version) (cveLookupTable srv.decimal (db.lookup product version))
  | read {q : DiagnosticQuery} {statement : PreparedSql} {t : QueryTable} (free : srv.Free)
    (built : q.statement defaultStarvationLoad = some (.ok statement))
    (ran : srv.store.queryPreparedWithin statement queryDeadlineNs = .ok t) : Ran srv q t

/-- The reply is taken for what the daemon did, and a failed experiment query for a running
window exactly when the window runs. -/
structure TakenForWhatItIs (srv : QueryServer) (q : DiagnosticQuery) : Prop where
  table : ∀ t, classifyQuery (srv.handleQuery q) = .ok (.table t) ↔ srv.Ran q t
  failed : (∀ t, ¬ srv.Ran q t) → ∃ m, classifyQuery (srv.handleQuery q) = .ok (.failed m)
  supported : ∀ m, classifyQuery (srv.handleQuery q) ≠ .ok (.unsupported m)
  polled : ∀ id m, q = .experiment id → classifyQuery (srv.handleQuery q) = .ok (.failed m) →
    (isExperimentRunning m = true ↔
      ∃ endsAtUs, srv.experiments.lookup id = some (.running endsAtUs))

/-- Neither the id of a window the record does not hold, or holds unreadable, nor the reason it is
unreadable spells the words of a running one. -/
def NoneMistaken (srv : QueryServer) (q : DiagnosticQuery) : Prop :=
  ∀ id, q = .experiment id → srv.experiments.lookup id = none → srv.Free →
    (srv.store.experiment id = .ok none → ¬ stillRunning <:+: ' ' :: id.toList ++ [' ']) ∧
    ∀ json e, srv.store.experiment id = .ok (some json) → srv.decode json = .error e →
      ¬ stillRunning <:+: ' ' :: id.toList ∧ ¬ stillRunning <:+: ' ' :: e.toList

end QueryServer

section

variable {decode : String → Except String QueryTable} {store : RecordReads} {q : DiagnosticQuery}
  {loadThreshold : Machine.F64} {budgetNs : Nat}

theorem mapError_eq_ok {α : Type} {f : ReadError → String} {x : Except ReadError α} {a : α} :
    x.mapError f = .ok a ↔ x = .ok a := by
  cases x with
  | error e => exact ⟨nofun, nofun⟩
  | ok b => exact ⟨fun same => by cases same; rfl, fun same => by cases same; rfl⟩

theorem experimentTableFromJson_ok {json : String} {t : QueryTable} {id : String} :
    (experimentTableFromJson decode json).mapError (experimentUnreadable id) = .ok t ↔
      decode json = .ok t := by
  unfold experimentTableFromJson
  cases decode json with
  | error e => exact ⟨nofun, nofun⟩
  | ok b => exact ⟨fun same => by cases same; rfl, fun same => by cases same; rfl⟩

/-- A query is neither a statement nor one of the two that are none. -/
theorem statement_none (none_ : q.statement loadThreshold = none) :
    (∃ id, q = .experiment id) ∨ ∃ product version, q = .cveLookup product version := by
  cases q with
  | experiment id => exact Or.inl ⟨id, rfl⟩
  | cveLookup product version => exact Or.inr ⟨product, version, rfl⟩
  | _ => cases none_

theorem runQuery_ok {t : QueryTable} :
    runQuery decode store q loadThreshold budgetNs = .ok t ↔
      (∃ statement, q.statement loadThreshold = some (.ok statement) ∧
        store.queryPreparedWithin statement budgetNs = .ok t) ∨
      ∃ id json, q = .experiment id ∧ store.experiment id = .ok (some json) ∧
        decode json = .ok t := by
  cases built : q.statement loadThreshold with
  | none =>
    rcases statement_none built with ⟨id, rfl⟩ | ⟨product, version, rfl⟩
    · unfold runQuery
      rw [built]
      dsimp only
      cases stored : store.experiment id with
      | error e => simp [stored]
      | ok found =>
        cases found with
        | none => simp [stored]
        | some json =>
          dsimp only
          rw [experimentTableFromJson_ok]
          simp [stored]
    · unfold runQuery
      rw [built]
      simp
  | some out =>
    have noId : ∀ id, q ≠ .experiment id := by
      rintro id rfl
      cases built
    unfold runQuery
    rw [built]
    cases out with
    | error e => simp [Except.bind, noId]
    | ok statement => simp [Except.bind, noId, mapError_eq_ok]

/-- The record does not hold the window, or cannot read its report, and says so. -/
def NotToldByRecord (decode : String → Except String QueryTable) (store : RecordReads)
    (id m : String) : Prop :=
  (store.experiment id = .ok none ∧ m = experimentNotFound id) ∨
    ∃ json e, store.experiment id = .ok (some json) ∧ decode json = .error e ∧
      m = experimentUnreadable id ("stored experiment report is unreadable: " ++ e)

theorem runQuery_error {m : String}
    (failed : runQuery decode store q loadThreshold budgetNs = .error m) :
    PlainFailure m ∨ ∃ id, q = .experiment id ∧ NotToldByRecord decode store id m := by
  unfold runQuery at failed
  split at failed
  · next built made =>
    cases built with
    | error e =>
      cases failed
      exact Or.inl (statement_refused made)
    | ok statement =>
      simp only [Except.bind] at failed
      cases ran : store.queryPreparedWithin statement budgetNs with
      | ok t =>
        rw [ran] at failed
        cases failed
      | error e =>
        rw [ran] at failed
        cases failed
        exact Or.inl (describe_plain e)
  · next id made =>
    cases stored : store.experiment id with
    | error e =>
      rw [stored] at failed
      cases failed
      exact Or.inl (describe_plain e)
    | ok found =>
      rw [stored] at failed
      cases found with
      | none =>
        cases failed
        exact Or.inr ⟨id, rfl, Or.inl ⟨stored, rfl⟩⟩
      | some json =>
        dsimp only at failed
        unfold experimentTableFromJson at failed
        cases read : decode json with
        | ok t =>
          rw [read] at failed
          cases failed
        | error e =>
          rw [read] at failed
          cases failed
          exact Or.inr ⟨id, rfl, Or.inr ⟨json, e, stored, read, rfl⟩⟩
  · cases failed
    exact Or.inl ⟨rfl, rfl⟩

theorem runQuery_notTold {id m : String} (told : NotToldByRecord decode store id m) :
    runQuery decode store (.experiment id) loadThreshold budgetNs = .error m := by
  have early : (DiagnosticQuery.experiment id).statement loadThreshold = none := rfl
  unfold runQuery
  rw [early]
  dsimp only
  rcases told with ⟨missing, rfl⟩ | ⟨json, e, stored, unread, rfl⟩
  · rw [missing]
  · rw [stored]
    dsimp only [experimentTableFromJson]
    rw [unread]
    rfl

end

namespace QueryServer

variable {srv : QueryServer} {q : DiagnosticQuery}

theorem queryStore_table {t : QueryTable} : srv.queryStore q = .table t ↔
    srv.Free ∧ runQuery srv.decode srv.store q defaultStarvationLoad queryDeadlineNs = .ok t := by
  unfold queryStore Free
  cases busy : srv.queryBusy with
  | true => simp
  | false =>
    cases failed : srv.taskFailed with
    | some e => simp
    | none =>
      cases ran : runQuery srv.decode srv.store q defaultStarvationLoad queryDeadlineNs with
      | ok t' => simp
      | error m => simp

/-- The store's part fails with plain words, or with what `run_query` says. -/
theorem queryStore_error {m : String} (failed : srv.queryStore q = .error m) : PlainFailure m ∨
    srv.Free ∧ runQuery srv.decode srv.store q defaultStarvationLoad queryDeadlineNs =
      .error m := by
  unfold queryStore at failed
  split at failed
  · cases failed
    exact Or.inl ⟨rfl, rfl⟩
  · have free := Bool.eq_false_iff.mpr ‹_›
    split at failed
    · cases failed
      have head : "diagnosis task failed: ".toList.head? = some 'd' := rfl
      exact Or.inl (plain_of_head head (by decide) (by decide) _)
    · have came := ‹srv.taskFailed = none›
      split at failed
      · cases failed
      · have ran := ‹runQuery _ _ _ _ _ = _›
        cases failed
        exact Or.inr ⟨⟨free, came⟩, ran⟩

theorem queryStore_not_other {shown : String} : srv.queryStore q ≠ .other shown := by
  unfold queryStore
  split
  · exact nofun
  · split
    · exact nofun
    · split <;> exact nofun

theorem cveLookupResponse_table {product : String} {version : Option String} {t : QueryTable} :
    srv.cveLookupResponse product version = .table t ↔
      ∃ scanner db, srv.scanner = some scanner ∧ scanner.snapshot srv.loadFromDir = .ready db ∧
        t = cveLookupTable srv.decimal (db.lookup product version) := by
  unfold cveLookupResponse SystemScanner.cveLookup
  cases held : srv.scanner with
  | none => simp
  | some scanner =>
    cases read : scanner.snapshot srv.loadFromDir with
    | ready db => simp [read, eq_comm]
    | unusable note => simp [read]

theorem plain_of_words {words m : String} {c : Char} (head : words.toList.head? = some c)
    (notB : c ≠ 'b') (notE : c ≠ 'e') (begins : words.toList <+: m.toList) : PlainFailure m := by
  obtain ⟨rest, text⟩ := begins
  have whole : m = words ++ String.ofList rest := by
    apply String.toList_injective
    rw [String.toList_append, String.toList_ofList, text]
  rw [whole]
  exact plain_of_head head notB notE _

theorem cveLookupResponse_error {product : String} {version : Option String} {m : String}
    (failed : srv.cveLookupResponse product version = .error m) : PlainFailure m := by
  unfold cveLookupResponse SystemScanner.cveLookup at failed
  cases held : srv.scanner with
  | none =>
    rw [held] at failed
    cases failed
    exact ⟨rfl, rfl⟩
  | some scanner =>
    rw [held] at failed
    dsimp only at failed
    cases read : scanner.snapshot srv.loadFromDir with
    | ready db =>
      rw [read] at failed
      cases failed
    | unusable note =>
      rw [read] at failed
      cases failed
      rcases note_begins read with begins | begins
      · have head : "cve rung ".toList.head? = some 'c' := rfl
        exact plain_of_words head (by decide) (by decide) begins
      · have head : "snapshot at ".toList.head? = some 's' := rfl
        exact plain_of_words head (by decide) (by decide) begins

/-- A query of the store's, which neither the registry nor the scanner answers. -/
theorem handleQuery_store (notId : ∀ id, q ≠ .experiment id)
    (notProduct : ∀ product version, q ≠ .cveLookup product version) :
    srv.handleQuery q = srv.queryStore q := by
  cases q with
  | experiment id => exact absurd rfl (notId id)
  | cveLookup product version => exact absurd rfl (notProduct product version)
  | _ => rfl

theorem handleQuery_absent {id : String} (absent : srv.experiments.lookup id = none) :
    srv.handleQuery (.experiment id) = srv.queryStore (.experiment id) := by
  simp only [handleQuery, experimentInMemory, absent, Option.map_none, Option.getD_none]

theorem handleQuery_running {id : String} {endsAtUs : Int}
    (held : srv.experiments.lookup id = some (.running endsAtUs)) :
    srv.handleQuery (.experiment id) =
      .error (experimentRunningMessage srv.localInstant id endsAtUs) := by
  simp only [handleQuery, experimentInMemory, held, Option.map_some, Option.getD_some]

theorem handleQuery_finished {id : String}
    (held : srv.experiments.lookup id = some .finished) :
    srv.handleQuery (.experiment id) = .table (srv.finishedReport id) := by
  simp only [handleQuery, experimentInMemory, held, Option.map_some, Option.getD_some]

/-- The daemon answers a table exactly where it ran the diagnosis. -/
theorem handleQuery_table_iff {t : QueryTable} : srv.handleQuery q = .table t ↔ srv.Ran q t := by
  constructor
  · intro answered
    cases q with
    | experiment id =>
      cases held : srv.experiments.lookup id with
      | none =>
        rw [handleQuery_absent held] at answered
        obtain ⟨free, ran⟩ := queryStore_table.mp answered
        rcases runQuery_ok.mp ran with ⟨statement, built, _⟩ | ⟨_, json, same, stored, read⟩
        · cases built
        · cases same
          exact .recorded held free stored read
      | some state =>
        cases state with
        | running endsAtUs =>
          rw [handleQuery_running held] at answered
          cases answered
        | finished =>
          rw [handleQuery_finished held] at answered
          cases answered
          exact .remembered held
    | cveLookup product version =>
      obtain ⟨scanner, db, held, ready, rfl⟩ := cveLookupResponse_table.mp answered
      exact .looked held ready
    | _ =>
      obtain ⟨free, ran⟩ := queryStore_table.mp answered
      rcases runQuery_ok.mp ran with ⟨statement, built, found⟩ | ⟨_, _, same, _⟩
      · exact .read free built found
      · cases same
  · intro ran
    cases ran with
    | remembered held => exact handleQuery_finished held
    | recorded absent free stored read =>
      rw [handleQuery_absent absent]
      exact queryStore_table.mpr ⟨free, runQuery_ok.mpr (Or.inr ⟨_, _, rfl, stored, read⟩)⟩
    | looked held ready => exact cveLookupResponse_table.mpr ⟨_, _, held, ready, rfl⟩
    | read free built found =>
      have notId : ∀ id, q ≠ .experiment id := by
        rintro id rfl
        cases built
      have notProduct : ∀ product version, q ≠ .cveLookup product version := by
        rintro product version rfl
        cases built
      rw [handleQuery_store notId notProduct]
      exact queryStore_table.mpr ⟨free, runQuery_ok.mpr (Or.inl ⟨_, built, found⟩)⟩

/-- What a query fails with: plain words, or one of the three about an experiment. -/
theorem handleQuery_error {m : String} (failed : srv.handleQuery q = .error m) :
    PlainFailure m ∨ ∃ id, q = .experiment id ∧
      ((∃ endsAtUs, srv.experiments.lookup id = some (.running endsAtUs) ∧
          m = experimentRunningMessage srv.localInstant id endsAtUs) ∨
        srv.experiments.lookup id = none ∧ srv.Free ∧
          NotToldByRecord srv.decode srv.store id m) := by
  have ofStore (stored : srv.queryStore q = .error m) : PlainFailure m ∨ ∃ id, q = .experiment id ∧
      srv.Free ∧ NotToldByRecord srv.decode srv.store id m := by
    rcases queryStore_error stored with plain | ⟨free, ran⟩
    · exact Or.inl plain
    · rcases runQuery_error ran with plain | ⟨id, same, told⟩
      · exact Or.inl plain
      · exact Or.inr ⟨id, same, free, told⟩
  cases q with
  | experiment id =>
    cases held : srv.experiments.lookup id with
    | none =>
      rw [handleQuery_absent held] at failed
      rcases ofStore failed with plain | ⟨_, same, told⟩
      · exact Or.inl plain
      · cases same
        exact Or.inr ⟨id, rfl, Or.inr ⟨held, told⟩⟩
    | some state =>
      cases state with
      | running endsAtUs =>
        rw [handleQuery_running held] at failed
        cases failed
        exact Or.inr ⟨id, rfl, Or.inl ⟨endsAtUs, held, rfl⟩⟩
      | finished =>
        rw [handleQuery_finished held] at failed
        cases failed
  | cveLookup product version => exact Or.inl (cveLookupResponse_error failed)
  | _ =>
    rcases ofStore failed with plain | ⟨_, same, _⟩
    · exact Or.inl plain
    · cases same

theorem handleQuery_not_other {shown : String} : srv.handleQuery q ≠ .other shown := by
  cases q with
  | experiment id =>
    cases held : srv.experiments.lookup id with
    | none =>
      rw [handleQuery_absent held]
      exact queryStore_not_other
    | some state =>
      cases state with
      | running endsAtUs =>
        rw [handleQuery_running held]
        exact nofun
      | finished =>
        rw [handleQuery_finished held]
        exact nofun
  | cveLookup product version =>
    change srv.cveLookupResponse product version ≠ .other shown
    unfold cveLookupResponse
    split
    · exact nofun
    · split <;> exact nofun
  | _ => exact queryStore_not_other

/-- No failure is read as a request that the daemon could not decode. -/
theorem handleQuery_decodable {m : String} (failed : srv.handleQuery q = .error m) :
    startsWith m undecodableRequest = false := by
  have ofExperiment (rest : String) :
      startsWith ("experiment " ++ rest) undecodableRequest = false := by
    have head : ("experiment " ++ rest).toList.head? = some 'e' := by
      rw [String.toList_append, List.head?_append]
      rfl
    exact startsWith_of_head head rfl (by decide)
  rcases handleQuery_error failed with plain | ⟨id, _, ⟨endsAtUs, _, rfl⟩ | ⟨_, _, told⟩⟩
  · exact plain.1
  · unfold experimentRunningMessage
    rw [String.append_assoc, String.append_assoc, String.append_assoc]
    exact ofExperiment _
  · rcases told with ⟨_, rfl⟩ | ⟨json, e, _, _, rfl⟩
    · unfold experimentNotFound
      rw [String.append_assoc]
      exact ofExperiment _
    · unfold experimentUnreadable
      rw [String.append_assoc, String.append_assoc]
      exact ofExperiment _

theorem classify_error {m : String} (failed : srv.handleQuery q = .error m) :
    classifyQuery (srv.handleQuery q) = .ok (.failed m) := by
  have decodable := handleQuery_decodable failed
  rw [failed, classifyQuery, decodable]
  rfl

theorem classify_table_iff {t : QueryTable} :
    classifyQuery (srv.handleQuery q) = .ok (.table t) ↔ srv.Ran q t := by
  rw [← handleQuery_table_iff]
  cases answered : srv.handleQuery q with
  | table t' => simp [classifyQuery]
  | error m =>
    rw [← answered, classify_error answered]
    simp [answered]
  | other shown => exact absurd answered handleQuery_not_other

theorem classify_failed {m : String}
    (failed : classifyQuery (srv.handleQuery q) = .ok (.failed m)) :
    srv.handleQuery q = .error m := by
  cases answered : srv.handleQuery q with
  | table t =>
    rw [answered] at failed
    cases failed
  | error m' =>
    rw [classify_error answered] at failed
    cases failed
    rfl
  | other shown => exact absurd answered handleQuery_not_other

/-- A query is answered as what the daemon did, and an experiment query waits exactly while its
window runs, exactly when no id and no reason spells the words of a running window. -/
theorem query_reply_faithful_iff (srv : QueryServer) (q : DiagnosticQuery) :
    srv.TakenForWhatItIs q ↔ srv.NoneMistaken q := by
  constructor
  · rintro reply id rfl absent free
    have asked := handleQuery_absent absent
    have idle : ¬ ∃ endsAtUs, srv.experiments.lookup id = some (.running endsAtUs) := by
      rintro ⟨endsAtUs, held⟩
      rw [absent] at held
      cases held
    have waits {m : String} (told : NotToldByRecord srv.decode srv.store id m) :
        isExperimentRunning m ≠ true := by
      have failed : srv.handleQuery (.experiment id) = .error m := by
        rw [asked, queryStore, free.1, free.2, runQuery_notTold told]
        rfl
      intro running
      exact idle ((reply.polled id m rfl (classify_error failed)).mp running)
    constructor
    · intro missing spelled
      exact waits (Or.inl ⟨missing, rfl⟩) ((not_found_running_iff id).mpr spelled)
    · intro json e stored unread
      have told := waits (Or.inr ⟨json, e, stored, unread, rfl⟩)
      rw [Ne, unreadable_running_iff, not_or] at told
      exact told
  · intro apart
    refine ⟨fun t => classify_table_iff, ?_, ?_, ?_⟩
    · intro idle
      cases answered : srv.handleQuery q with
      | table t => exact absurd (handleQuery_table_iff.mp answered) (idle t)
      | error m => exact ⟨m, answered ▸ classify_error answered⟩
      | other shown => exact absurd answered handleQuery_not_other
    · intro m unsupported
      cases answered : srv.handleQuery q with
      | table t =>
        rw [answered] at unsupported
        cases unsupported
      | error m' =>
        rw [classify_error answered] at unsupported
        cases unsupported
      | other shown => exact absurd answered handleQuery_not_other
    · rintro id m rfl failed
      have failed := classify_failed failed
      cases held : srv.experiments.lookup id with
      | some state =>
        cases state with
        | finished =>
          rw [handleQuery_finished held] at failed
          cases failed
        | running endsAtUs =>
          rw [handleQuery_running held] at failed
          cases failed
          exact ⟨fun _ => ⟨endsAtUs, rfl⟩, fun _ => running_message srv.localInstant id endsAtUs⟩
      | none =>
        have idle : ¬ ∃ endsAtUs, (none : Option ExperimentState) = some (.running endsAtUs) := by
          rintro ⟨endsAtUs, held⟩
          cases held
        have still : isExperimentRunning m ≠ true := by
          rcases handleQuery_error failed with plain | ⟨_, same, ⟨_, running, _⟩ | ⟨_, free, told⟩⟩
          · rw [not_running_of_plain plain]
            exact Bool.false_ne_true
          · cases same
            rw [held] at running
            cases running
          · cases same
            obtain ⟨whenMissing, whenUnread⟩ := apart id rfl held free
            rcases told with ⟨missing, rfl⟩ | ⟨json, e, stored, unread, rfl⟩
            · rw [Ne, not_found_running_iff]
              exact whenMissing missing
            · rw [Ne, unreadable_running_iff, not_or]
              exact whenUnread json e stored unread
        exact iff_of_false still idle

end QueryServer

/-- A daemon that has run nothing and recorded nothing. -/
def idleServer : QueryServer where
  experiments := []
  finishedReport := fun _ => ⟨[], []⟩
  store := ⟨fun _ => .ok none, fun _ _ => .ok ⟨[], []⟩⟩
  scanner := none
  queryBusy := false
  taskFailed := none
  loadFromDir := fun _ => .error "no such directory"
  decode := fun _ => .error "EOF while parsing a value at line 1 column 0"
  decimal := fun _ => "0"
  localInstant := fun _ => ""

/-- An id that spells the words of a running window is waited for, though no window runs. -/
theorem unknown_id_waited_for :
    ¬ idleServer.TakenForWhatItIs (.experiment "x still running (ends at") := by
  intro reply
  have failed : classifyQuery (idleServer.handleQuery (.experiment "x still running (ends at")) =
      .ok (.failed (experimentNotFound "x still running (ends at")) := rfl
  have running : isExperimentRunning (experimentNotFound "x still running (ends at") = true := rfl
  obtain ⟨endsAtUs, held⟩ := (reply.polled _ _ rfl failed).mp running
  cases held

end NetObserver
