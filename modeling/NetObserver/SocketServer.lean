import NetObserver.ControlGate
import NetObserver.EventStream
import NetObserver.QueryReplies
import NetObserver.Slots

/-! The socket server: connections accepted up to a cap, each read for one request within a time
and answered by one response or held open as a stream; the slots they hold of three pools. -/

namespace NetObserver

inductive SocketRequest where
  | status
  | incidents (limit : Nat)
  | query (q : DiagnosticQuery)
  | control (cmd : SocketCommand)
  | subscribe (kinds : Option (List EventKind))

inductive OneShot where
  | status
  | incidents
  | control
  | table
  | error (message : String)

inductive Written where
  | response (r : OneShot)
  | frame (f : StreamFrame)

/-- Where a connection stands; a refused one was closed at accept. -/
inductive ConnPhase where
  | refused
  | reading (acceptedNs : Nat)
  | querying
  | replying (r : OneShot)
  | refusing
  | subscribed (kinds : Option (List EventKind))
  | streaming (kinds : Option (List EventKind))
  | closed

namespace ConnPhase

def holdsConnection : ConnPhase → Bool
  | refused | closed => false
  | _ => true

def holdsSubscription : ConnPhase → Bool
  | subscribed _ | streaming _ => true
  | _ => false

def holdsPermit : ConnPhase → Bool
  | querying => true
  | _ => false

end ConnPhase

structure ServerLimits where
  maxConnections : Nat
  maxSubscribers : Nat
  requestTimeoutNs : Nat
  apart : maxSubscribers < maxConnections

def productionLimits : ServerLimits := ⟨512, 256, 10000000000, by decide⟩

def maxQueriesInFlight : Nat := 1

/-- The slots taken of the two counted pools, and the permits of the query gate still free. -/
structure Pools where
  connections : Nat
  subscribers : Nat
  permits : Nat

/-- A connection with the pools its last claim of a slot found, the request that was read on it
and what was written to it whole. -/
structure SocketConn where
  found : Pools
  asked : Option (Except String SocketRequest)
  phase : ConnPhase
  written : List Written

/-- What the parts behind the socket answer without the store: the windows held in memory, and
the local index of vulnerabilities. -/
structure LocalAnswers where
  experimentInMemory : String → Option (Except String Unit)
  cveLookup : String → Option String → Except String Unit

inductive ConnMove where
  | close
  | timeOut
  | request (asked : Except String SocketRequest) (answers : LocalAnswers)
  | queryBack (result : Except String Unit)
  | write (tsUs : Int)
  | ack (tsUs : Int) (observing : Bool) (probing : ProbingTier)
  | deliver (f : StreamFrame)
  | lag (tsUs : Int) (skipped : Nat)
  | breakOff

def tableOr : Except String Unit → OneShot
  | .ok _ => .table
  | .error message => .error message

/-- The frames a bus carries. -/
def StreamFrame.onBus : StreamFrame → Bool
  | .event _ | .observing _ | .probing _ => true
  | .ready _ | .gap _ | .error _ => false

namespace SocketConn

/-- `query_store`: the gate is tried, never waited at. -/
def queryStore (n : Pools) (c : SocketConn) : Pools × SocketConn :=
  match n.permits with
  | 0 => (n, { c with phase := .replying (.error queryBusyText) })
  | permits + 1 => ({ n with permits := permits }, { c with phase := .querying })

/-- The arms of `handle_conn` behind the decoding of the request. -/
def dispatch (limits : ServerLimits) (n : Pools) (c : SocketConn) (answers : LocalAnswers) :
    Except String SocketRequest → Pools × SocketConn
  | .error e => (n, { c with phase := .replying (.error (undecodableRequest ++ e)) })
  | .ok .status => (n, { c with phase := .replying .status })
  | .ok (.incidents _) => (n, { c with phase := .replying .incidents })
  | .ok (.control _) => (n, { c with phase := .replying .control })
  | .ok (.query (.experiment id)) =>
    match answers.experimentInMemory id with
    | some result => (n, { c with phase := .replying (tableOr result) })
    | none => queryStore n c
  | .ok (.query (.cveLookup product version)) =>
    (n, { c with phase := .replying (tableOr (answers.cveLookup product version)) })
  | .ok (.query _) => queryStore n c
  | .ok (.subscribe kinds) =>
    if n.subscribers < limits.maxSubscribers then
      ({ n with subscribers := n.subscribers + 1 }, { c with phase := .subscribed kinds })
    else (n, { c with phase := .refusing })

/-- What a request does to its connection, which from then on tells what it found. -/
def request (limits : ServerLimits) (n : Pools) (c : SocketConn)
    (asked : Except String SocketRequest) (answers : LocalAnswers) : Pools × SocketConn :=
  dispatch limits n { c with found := n, asked := some asked } answers asked

/-- The connection's task ends, and drops the slots it holds. -/
def leave (n : Pools) (c : SocketConn) : Pools × SocketConn :=
  ({ n with
    connections := n.connections - 1
    subscribers := if c.phase.holdsSubscription then n.subscribers - 1 else n.subscribers },
   { c with phase := .closed })

def say (c : SocketConn) (frames : List Written) : SocketConn :=
  { c with written := c.written ++ frames }

def limitReached (limits : ServerLimits) (tsUs : Int) : StreamFrame :=
  .error ⟨tsUs, .tooManySubscribers,
    "subscriber limit reached (" ++ limits.maxSubscribers.repr ++ " concurrent)"⟩

def move (limits : ServerLimits) (clockNs : Nat) (n : Pools) (c : SocketConn) :
    ConnMove → Option (Pools × SocketConn)
  | .close =>
    match c.phase with
    | .reading _ => some (c.leave n)
    | _ => none
  | .timeOut =>
    match c.phase with
    | .reading acceptedNs =>
      if acceptedNs + limits.requestTimeoutNs ≤ clockNs then some (c.leave n) else none
    | _ => none
  | .request asked answers =>
    match c.phase with
    | .reading _ => some (request limits n c asked answers)
    | _ => none
  | .queryBack result =>
    match c.phase with
    | .querying =>
      some ({ n with permits := n.permits + 1 }, { c with phase := .replying (tableOr result) })
    | _ => none
  | .write tsUs =>
    match c.phase with
    | .replying r => some ((c.say [.response r]).leave n)
    | .refusing => some ((c.say [.frame (limitReached limits tsUs)]).leave n)
    | _ => none
  -- the receiver exists by now: the ack is the client's proof of it
  | .ack tsUs observing probing =>
    match c.phase with
    | .subscribed kinds =>
      some (n, { c.say [.frame (.ready ⟨tsUs, kinds, observing, probing⟩)] with
        phase := .streaming kinds })
    | _ => none
  | .deliver f =>
    match c.phase with
    | .streaming kinds =>
      if f.onBus then
        some (n, if (EncodedFrame.encode f).passes kinds then c.say [.frame f] else c)
      else none
    | _ => none
  | .lag tsUs skipped =>
    match c.phase with
    | .streaming _ => some (n, c.say [.frame (.gap ⟨tsUs, skipped⟩)])
    | _ => none
  -- a write fails, or the subscriber is gone
  | .breakOff =>
    match c.phase with
    | .replying _ | .refusing | .subscribed _ | .streaming _ => some (c.leave n)
    | _ => none

end SocketConn

structure SocketServer where
  clockNs : Nat
  pools : Pools
  conns : List SocketConn

inductive ServerStep where
  | accept
  | pass (ns : Nat)
  | conn (k : Nat) (m : ConnMove)

namespace SocketServer

def start : SocketServer := ⟨0, ⟨0, 0, maxQueriesInFlight⟩, []⟩

/-- Over the cap a connection is accepted and closed. -/
def accept (limits : ServerLimits) (w : SocketServer) : SocketServer :=
  if w.pools.connections < limits.maxConnections then
    { w with
      pools := { w.pools with connections := w.pools.connections + 1 }
      conns := w.conns ++ [⟨w.pools, none, .reading w.clockNs, []⟩] }
  else { w with conns := w.conns ++ [⟨w.pools, none, .refused, []⟩] }

def step (limits : ServerLimits) (w : SocketServer) : ServerStep → Option SocketServer
  | .accept => some (w.accept limits)
  | .pass ns => some { w with clockNs := w.clockNs + ns }
  | .conn k m =>
    w.conns[k]?.bind fun c =>
      (c.move limits w.clockNs w.pools m).map fun r =>
        { w with pools := r.1, conns := w.conns.set k r.2 }

end SocketServer

/-- The answers a request can be given. -/
def Answers : Except String SocketRequest → OneShot → Prop
  | .error e, r => r = .error (undecodableRequest ++ e)
  | .ok .status, r => r = .status
  | .ok (.incidents _), r => r = .incidents
  | .ok (.control _), r => r = .control
  | .ok (.query _), r => r = .table ∨ ∃ message, r = .error message
  | .ok (.subscribe _), _ => False

theorem answers_tableOr (q : DiagnosticQuery) (result : Except String Unit) :
    Answers (.ok (.query q)) (tableOr result) := by
  cases result with
  | ok => exact .inl rfl
  | error message => exact .inr ⟨message, rfl⟩

/-- What a stream may carry behind its ack: the frames of the bus that pass its filter, and the
gaps in it. -/
def Passing (kinds : Option (List EventKind)) : Written → Prop
  | .response _ => False
  | .frame f => (f.onBus = true ∧ (EncodedFrame.encode f).passes kinds = true) ∨ ∃ g, f = .gap g

namespace SocketConn

/-- The pools before and after a move that takes a connection from one phase to another. -/
structure PoolsMoved (limits : ServerLimits) (n n' : Pools) (p q : ConnPhase) : Prop where
  connections : (p.holdsConnection = true → 0 < n.connections) →
    n'.connections + p.holdsConnection.toNat = n.connections + q.holdsConnection.toNat
  subscribers : (p.holdsSubscription = true → 0 < n.subscribers) →
    n'.subscribers + p.holdsSubscription.toNat = n.subscribers + q.holdsSubscription.toNat
  permits : n'.permits + q.holdsPermit.toNat = n.permits + p.holdsPermit.toNat
  fewer : n'.connections ≤ n.connections
  capped : n.subscribers ≤ limits.maxSubscribers → n'.subscribers ≤ limits.maxSubscribers

theorem PoolsMoved.same {limits : ServerLimits} {n : Pools} {p q : ConnPhase}
    (connections : q.holdsConnection = p.holdsConnection)
    (subscribers : q.holdsSubscription = p.holdsSubscription)
    (permits : q.holdsPermit = p.holdsPermit) : PoolsMoved limits n n p q where
  connections := fun _ => by rw [connections]
  subscribers := fun _ => by rw [subscribers]
  permits := by rw [permits]
  fewer := Nat.le_refl _
  capped := id

/-- What a connection says with its last move. -/
inductive LastWord (limits : ServerLimits) (c : SocketConn) : List Written → Prop where
  | none : LastWord limits c []
  | response {r : OneShot} (replying : c.phase = .replying r) : LastWord limits c [.response r]
  | full (tsUs : Int) (refusing : c.phase = .refusing) :
      LastWord limits c [.frame (limitReached limits tsUs)]

/-- The moves of a connection, with what each of them finds and leaves. -/
inductive Moved (limits : ServerLimits) (n : Pools) (c : SocketConn) :
    Pools × SocketConn → Prop where
  | leave {frames : List Written} (holds : c.phase.holdsConnection = true)
      (idle : c.phase.holdsPermit = false) (last : LastWord limits c frames) :
      Moved limits n c ((c.say frames).leave n)
  | reply {t : Nat} (asked : Except String SocketRequest) (r : OneShot)
      (reading : c.phase = .reading t) (answers : Answers asked r) :
      Moved limits n c
        (n, { c with found := n, asked := some asked, phase := .replying r })
  | query {t permits : Nat} (q : DiagnosticQuery) (reading : c.phase = .reading t)
      (free : n.permits = permits + 1) :
      Moved limits n c ({ n with permits := permits },
        { c with found := n, asked := some (.ok (.query q)), phase := .querying })
  | subscribe {t : Nat} (kinds : Option (List EventKind)) (reading : c.phase = .reading t)
      (room : n.subscribers < limits.maxSubscribers) :
      Moved limits n c ({ n with subscribers := n.subscribers + 1 },
        { c with found := n, asked := some (.ok (.subscribe kinds)), phase := .subscribed kinds })
  | refuse {t : Nat} (kinds : Option (List EventKind)) (reading : c.phase = .reading t)
      (full : limits.maxSubscribers ≤ n.subscribers) :
      Moved limits n c
        (n, { c with found := n, asked := some (.ok (.subscribe kinds)), phase := .refusing })
  | back (result : Except String Unit) (querying : c.phase = .querying) :
      Moved limits n c
        ({ n with permits := n.permits + 1 }, { c with phase := .replying (tableOr result) })
  | ready {kinds : Option (List EventKind)} (tsUs : Int) (observing : Bool) (probing : ProbingTier)
      (subscribed : c.phase = .subscribed kinds) :
      Moved limits n c (n, { c.say [.frame (.ready ⟨tsUs, kinds, observing, probing⟩)] with
        phase := .streaming kinds })
  | tell {kinds : Option (List EventKind)} (frames : List Written)
      (streaming : c.phase = .streaming kinds) (passing : ∀ f ∈ frames, Passing kinds f) :
      Moved limits n c (n, c.say frames)

theorem queryStore_moved {limits : ServerLimits} {n : Pools} {c : SocketConn} {t : Nat}
    (q : DiagnosticQuery) (reading : c.phase = .reading t) :
    Moved limits n c
      (queryStore n { c with found := n, asked := some (.ok (.query q)) }) := by
  unfold queryStore
  split
  next => exact .reply _ _ reading (.inr ⟨queryBusyText, rfl⟩)
  next permits free => exact .query q reading free

theorem request_moved {limits : ServerLimits} {n : Pools} {c : SocketConn} {t : Nat}
    (asked : Except String SocketRequest) (answers : LocalAnswers)
    (reading : c.phase = .reading t) : Moved limits n c (request limits n c asked answers) := by
  unfold request dispatch
  split
  next e => exact .reply _ _ reading rfl
  next => exact .reply _ _ reading rfl
  next limit => exact .reply _ _ reading rfl
  next cmd => exact .reply _ _ reading rfl
  next id =>
    split
    next result _ => exact .reply _ _ reading (answers_tableOr _ _)
    next => exact queryStore_moved _ reading
  next product version => exact .reply _ _ reading (answers_tableOr _ _)
  next q _ _ => exact queryStore_moved q reading
  next kinds =>
    split
    next room => exact .subscribe kinds reading room
    next full => exact .refuse kinds reading (Nat.le_of_not_lt full)

theorem say_nil (c : SocketConn) : c.say [] = c := by rw [say, List.append_nil]

theorem leave_moved {limits : ServerLimits} {n : Pools} {c : SocketConn}
    (holds : c.phase.holdsConnection = true) (idle : c.phase.holdsPermit = false) :
    Moved limits n c (c.leave n) := by
  have left : Moved limits n c ((c.say []).leave n) := .leave holds idle .none
  rw [say_nil] at left
  exact left

theorem move_moved {limits : ServerLimits} {clockNs : Nat} {n : Pools} {c : SocketConn}
    {m : ConnMove} {r : Pools × SocketConn} (moved : c.move limits clockNs n m = some r) :
    Moved limits n c r := by
  unfold move at moved
  split at moved
  next =>
    split at moved
    next t reading =>
      cases moved
      exact leave_moved (by rw [reading]; rfl) (by rw [reading]; rfl)
    next => cases moved
  next =>
    split at moved
    next t reading =>
      split at moved
      next =>
        cases moved
        exact leave_moved (by rw [reading]; rfl) (by rw [reading]; rfl)
      next => cases moved
    next => cases moved
  next asked answers =>
    split at moved
    next t reading =>
      cases moved
      exact request_moved asked answers reading
    next => cases moved
  next result =>
    split at moved
    next querying =>
      cases moved
      exact .back result querying
    next => cases moved
  next tsUs =>
    split at moved
    next r replying =>
      cases moved
      exact .leave (by rw [replying]; rfl) (by rw [replying]; rfl) (.response replying)
    next refusing =>
      cases moved
      exact .leave (by rw [refusing]; rfl) (by rw [refusing]; rfl) (.full tsUs refusing)
    next => cases moved
  next tsUs observing probing =>
    split at moved
    next kinds subscribed =>
      cases moved
      exact .ready tsUs observing probing subscribed
    next => cases moved
  next f =>
    split at moved
    next kinds streaming =>
      split at moved
      next onBus =>
        split at moved
        next passes =>
          cases moved
          refine .tell _ streaming fun w mem => ?_
          cases List.mem_singleton.mp mem
          exact .inl ⟨onBus, passes⟩
        next =>
          cases moved
          have told : Moved limits n c (n, c.say []) :=
            .tell [] streaming fun w mem => by cases mem
          rw [say_nil] at told
          exact told
      next => cases moved
    next => cases moved
  next tsUs skipped =>
    split at moved
    next kinds streaming =>
      cases moved
      refine .tell _ streaming fun w mem => ?_
      cases List.mem_singleton.mp mem
      exact .inr ⟨_, rfl⟩
    next => cases moved
  next =>
    have broken (holds : c.phase.holdsConnection = true) (idle : c.phase.holdsPermit = false)
        (left : some (c.leave n) = some r) : Moved limits n c r := by
      cases left
      exact leave_moved holds idle
    split at moved
    next phase => exact broken (by rw [phase]; rfl) (by rw [phase]; rfl) moved
    next phase => exact broken (by rw [phase]; rfl) (by rw [phase]; rfl) moved
    next phase => exact broken (by rw [phase]; rfl) (by rw [phase]; rfl) moved
    next phase => exact broken (by rw [phase]; rfl) (by rw [phase]; rfl) moved
    next => cases moved

/-- A connection gives up what it holds with its phase. -/
theorem Moved.pools {limits : ServerLimits} {n : Pools} {c : SocketConn} {r : Pools × SocketConn}
    (moved : Moved limits n c r) : PoolsMoved limits n r.1 c.phase r.2.phase := by
  cases moved with
  | @leave frames holds idle last =>
    refine ⟨?_, ?_, ?_, Nat.sub_le _ _, ?_⟩
    · intro held
      have some := held holds
      show n.connections - 1 + c.phase.holdsConnection.toNat = n.connections + 0
      rw [holds, Bool.toNat_true]
      omega
    · intro held
      show (if c.phase.holdsSubscription then n.subscribers - 1 else n.subscribers) +
        c.phase.holdsSubscription.toNat = n.subscribers + 0
      cases holder : c.phase.holdsSubscription with
      | false => rfl
      | true =>
        have some := held holder
        exact Nat.sub_add_cancel some
    · rw [idle]
      rfl
    · intro capped
      show (if c.phase.holdsSubscription then n.subscribers - 1 else n.subscribers) ≤ _
      split
      next => omega
      next => exact capped
  | reply asked r reading answers =>
    exact .same (by rw [reading]; rfl) (by rw [reading]; rfl) (by rw [reading]; rfl)
  | @query t permits q reading free =>
    refine ⟨fun _ => ?_, fun _ => ?_, ?_, Nat.le_refl _, id⟩
    · rw [reading]; rfl
    · rw [reading]; rfl
    · rw [reading, free]; rfl
  | subscribe kinds reading room =>
    refine ⟨fun _ => ?_, fun _ => ?_, ?_, Nat.le_refl _, fun _ => room⟩
    · rw [reading]; rfl
    · rw [reading]; rfl
    · rw [reading]; rfl
  | refuse kinds reading full =>
    exact .same (by rw [reading]; rfl) (by rw [reading]; rfl) (by rw [reading]; rfl)
  | back result querying =>
    refine ⟨fun _ => ?_, fun _ => ?_, ?_, Nat.le_refl _, id⟩
    · rw [querying]; rfl
    · rw [querying]; rfl
    · rw [querying]; rfl
  | ready tsUs observing probing subscribed =>
    exact .same (by rw [subscribed]; rfl) (by rw [subscribed]; rfl) (by rw [subscribed]; rfl)
  | tell frames streaming passing => exact .same rfl rfl rfl

end SocketConn

/-- What a connection has said, by what it was asked and the pools it found: nothing, one answer,
the refusal of a subscription while all slots were taken, or an ack and what may follow it. -/
inductive Transcript (limits : ServerLimits) (found : Pools) :
    Option (Except String SocketRequest) → List Written → Prop where
  | nothing (asked : Option (Except String SocketRequest)) : Transcript limits found asked []
  | answered {asked : Except String SocketRequest} {r : OneShot} (answers : Answers asked r) :
      Transcript limits found (some asked) [.response r]
  | full (kinds : Option (List EventKind)) (tsUs : Int)
      (taken : limits.maxSubscribers ≤ found.subscribers) :
      Transcript limits found (some (.ok (.subscribe kinds)))
        [.frame (SocketConn.limitReached limits tsUs)]
  | stream {kinds : Option (List EventKind)} {ready : Ready} {frames : List Written}
      (room : found.subscribers < limits.maxSubscribers) (own : ready.kinds = kinds)
      (passing : ∀ f ∈ frames, Passing kinds f) :
      Transcript limits found (some (.ok (.subscribe kinds))) (.frame (.ready ready) :: frames)

/-- A connection closed at accept met the cap, with as many others open that had not subscribed
as the two caps are apart. -/
def Crowded (limits : ServerLimits) (found : Pools) : Prop :=
  limits.maxConnections ≤ found.connections ∧
    limits.maxConnections - limits.maxSubscribers ≤ found.connections - found.subscribers

/-- What is known of a connection in each of its phases. -/
inductive ConnKept (limits : ServerLimits) : SocketConn → Prop where
  | refused {found : Pools} (crowded : Crowded limits found) :
      ConnKept limits ⟨found, none, .refused, []⟩
  | reading {found : Pools} {t : Nat} : ConnKept limits ⟨found, none, .reading t, []⟩
  | querying {found : Pools} {q : DiagnosticQuery} :
      ConnKept limits ⟨found, some (.ok (.query q)), .querying, []⟩
  | replying {found : Pools} {asked : Except String SocketRequest} {r : OneShot}
      (answers : Answers asked r) : ConnKept limits ⟨found, some asked, .replying r, []⟩
  | refusing {found : Pools} {kinds : Option (List EventKind)}
      (taken : limits.maxSubscribers ≤ found.subscribers) :
      ConnKept limits ⟨found, some (.ok (.subscribe kinds)), .refusing, []⟩
  | subscribed {found : Pools} {kinds : Option (List EventKind)}
      (room : found.subscribers < limits.maxSubscribers) :
      ConnKept limits ⟨found, some (.ok (.subscribe kinds)), .subscribed kinds, []⟩
  | streaming {found : Pools} {kinds : Option (List EventKind)} {ready : Ready}
      {frames : List Written} (room : found.subscribers < limits.maxSubscribers)
      (own : ready.kinds = kinds) (passing : ∀ f ∈ frames, Passing kinds f) :
      ConnKept limits
        ⟨found, some (.ok (.subscribe kinds)), .streaming kinds, .frame (.ready ready) :: frames⟩
  | closed {found : Pools} {asked : Option (Except String SocketRequest)} {written : List Written}
      (transcript : Transcript limits found asked written) :
      ConnKept limits ⟨found, asked, .closed, written⟩

namespace ConnKept

variable {limits : ServerLimits} {n : Pools} {c : SocketConn}

theorem transcript (kept : ConnKept limits c) : Transcript limits c.found c.asked c.written := by
  cases kept with
  | refused | reading | querying | replying | refusing | subscribed => exact .nothing _
  | streaming room own passing => exact .stream room own passing
  | closed transcript => exact transcript

theorem lastWord (kept : ConnKept limits c) {frames : List Written}
    (last : SocketConn.LastWord limits c frames) :
    Transcript limits c.found c.asked (c.written ++ frames) := by
  cases last with
  | none =>
    rw [List.append_nil]
    exact kept.transcript
  | response replying =>
    cases kept with
    | replying answers =>
      cases replying
      exact .answered answers
    | refused | reading | querying | refusing | subscribed | streaming | closed => cases replying
  | full tsUs refusing =>
    cases kept with
    | refusing taken => exact .full _ tsUs taken
    | refused | reading | querying | replying | subscribed | streaming | closed => cases refusing

theorem moved (kept : ConnKept limits c) {r : Pools × SocketConn}
    (moved : SocketConn.Moved limits n c r) : ConnKept limits r.2 := by
  cases moved with
  | leave holds idle last => exact .closed (kept.lastWord last)
  | reply asked r reading answers =>
    cases kept with
    | reading => exact .replying answers
    | refused | querying | replying | refusing | subscribed | streaming | closed => cases reading
  | query q reading free =>
    cases kept with
    | reading => exact .querying
    | refused | querying | replying | refusing | subscribed | streaming | closed => cases reading
  | subscribe kinds reading room =>
    cases kept with
    | reading => exact .subscribed room
    | refused | querying | replying | refusing | subscribed | streaming | closed => cases reading
  | refuse kinds reading full =>
    cases kept with
    | reading => exact .refusing full
    | refused | querying | replying | refusing | subscribed | streaming | closed => cases reading
  | back result querying =>
    cases kept with
    | @querying found q => exact .replying (answers_tableOr q result)
    | refused | reading | replying | refusing | subscribed | streaming | closed => cases querying
  | ready tsUs observing probing subscribed =>
    cases kept with
    | subscribed room =>
      cases subscribed
      exact .streaming room rfl fun f mem => (by cases mem)
    | refused | reading | querying | replying | refusing | streaming | closed => cases subscribed
  | tell frames streaming passing =>
    cases kept with
    | streaming room own before =>
      cases streaming
      refine .streaming room own fun f mem => ?_
      rcases List.mem_append.mp mem with old | new
      · exact before f old
      · exact passing f new
    | refused | reading | querying | replying | refusing | subscribed | closed => cases streaming

end ConnKept

/-- What holds of the server between any two steps: each pool stands at what its holders hold. -/
structure ServerKept (limits : ServerLimits) (w : SocketServer) : Prop where
  connections : Tallied (fun c => c.phase.holdsConnection) w.pools.connections w.conns
  subscribers : Tallied (fun c => c.phase.holdsSubscription) w.pools.subscribers w.conns
  queries : ∃ inFlight, Tallied (fun c => c.phase.holdsPermit) inFlight w.conns ∧
    w.pools.permits + inFlight = maxQueriesInFlight
  connectionCap : w.pools.connections ≤ limits.maxConnections
  subscriberCap : w.pools.subscribers ≤ limits.maxSubscribers
  conns : ∀ c ∈ w.conns, ConnKept limits c

namespace ServerKept

variable {limits : ServerLimits} {w w' : SocketServer}

theorem start (limits : ServerLimits) : ServerKept limits .start where
  connections := .nil
  subscribers := .nil
  queries := ⟨0, .nil, rfl⟩
  connectionCap := Nat.zero_le _
  subscriberCap := Nat.zero_le _
  conns := fun c mem => by cases mem

theorem accept (kept : ServerKept limits w) : ServerKept limits (w.accept limits) := by
  obtain ⟨inFlight, queries, gate⟩ := kept.queries
  unfold SocketServer.accept
  split
  next room =>
    refine ⟨kept.connections.push _, kept.subscribers.push _, ⟨_, queries.push _, gate⟩, room,
      kept.subscriberCap, ?_⟩
    intro c mem
    rcases List.mem_append.mp mem with old | new
    · exact kept.conns c old
    · cases List.mem_singleton.mp new
      exact .reading
  next full =>
    refine ⟨kept.connections.push _, kept.subscribers.push _, ⟨_, queries.push _, gate⟩,
      kept.connectionCap, kept.subscriberCap, ?_⟩
    intro c mem
    rcases List.mem_append.mp mem with old | new
    · exact kept.conns c old
    · cases List.mem_singleton.mp new
      have subscribers := kept.subscriberCap
      exact .refused ⟨by omega, by omega⟩

theorem conn (kept : ServerKept limits w) {k : Nat} {c : SocketConn} {r : Pools × SocketConn}
    (here : w.conns[k]? = some c) (moved : SocketConn.Moved limits w.pools c r) :
    ServerKept limits { w with pools := r.1, conns := w.conns.set k r.2 } := by
  have pools := moved.pools
  obtain ⟨connections, connectionsKept, connectionsMoved⟩ := kept.connections.replace here r.2
  obtain ⟨subscribers, subscribersKept, subscribersMoved⟩ := kept.subscribers.replace here r.2
  obtain ⟨inFlight, queries, gate⟩ := kept.queries
  obtain ⟨inFlight', queriesKept, queriesMoved⟩ := queries.replace here r.2
  have connectionsSame : connections = r.1.connections := by
    have moved := pools.connections (kept.connections.holder here)
    omega
  have subscribersSame : subscribers = r.1.subscribers := by
    have moved := pools.subscribers (kept.subscribers.holder here)
    omega
  have gateSame : r.1.permits + inFlight' = maxQueriesInFlight := by
    have moved := pools.permits
    omega
  refine ⟨connectionsSame ▸ connectionsKept, subscribersSame ▸ subscribersKept,
    ⟨inFlight', queriesKept, gateSame⟩, ?_, pools.capped kept.subscriberCap, ?_⟩
  · exact Nat.le_trans pools.fewer kept.connectionCap
  · intro d mem
    rcases List.mem_or_eq_of_mem_set mem with old | rfl
    · exact kept.conns d old
    · exact (kept.conns c (List.mem_of_getElem? here)).moved moved

theorem step {label : ServerStep} (stepped : w.step limits label = some w')
    (kept : ServerKept limits w) : ServerKept limits w' := by
  cases label with
  | accept =>
    cases stepped
    exact kept.accept
  | pass ns =>
    cases stepped
    exact ⟨kept.connections, kept.subscribers, kept.queries, kept.connectionCap,
      kept.subscriberCap, kept.conns⟩
  | conn k m =>
    obtain ⟨c, here, stepped⟩ := Option.bind_eq_some_iff.mp stepped
    obtain ⟨r, moved, rfl⟩ := Option.map_eq_some_iff.mp stepped
    exact kept.conn here (SocketConn.move_moved moved)

theorem run {labels : List ServerStep}
    (ran : Runs.runSteps (SocketServer.step limits) w labels = some w')
    (kept : ServerKept limits w) : ServerKept limits w' :=
  Runs.runSteps_invariant (fun _ _ _ => step) ran kept

end ServerKept

namespace SocketServer

variable {limits : ServerLimits} {w : SocketServer} {labels : List ServerStep}

/-- A connection whose diagnosis is not in flight can be brought to its end in one move. -/
theorem ends_idle (kept : ServerKept limits w) {k : Nat} {c : SocketConn}
    (here : w.conns[k]? = some c) (holds : c.phase.holdsConnection = true)
    (idle : c.phase.holdsPermit = false) :
    ∃ labels w', Runs.runSteps (step limits) w labels = some w' ∧
      w'.pools.connections < w.pools.connections := by
  have left : (c.leave w.pools).1.connections < w.pools.connections :=
    Nat.sub_lt (kept.connections.holder here holds) Nat.one_pos
  have one {m : ConnMove} (moved : c.move limits w.clockNs w.pools m = some (c.leave w.pools)) :
      ∃ labels w', Runs.runSteps (step limits) w labels = some w' ∧
        w'.pools.connections < w.pools.connections := by
    refine ⟨[.conn k m], { w with
      pools := (c.leave w.pools).1, conns := w.conns.set k (c.leave w.pools).2 }, ?_, left⟩
    refine Runs.runSteps_cons_eq_some.mpr ⟨_, ?_, Runs.runSteps_nil _ _⟩
    rw [step, here, Option.bind_some, moved, Option.map_some]
  rcases c with ⟨found, asked, phase, written⟩
  cases phase with
  | refused | closed => cases holds
  | querying => cases idle
  | reading t => exact one (m := .close) rfl
  | replying r => exact one (m := .breakOff) rfl
  | refusing => exact one (m := .breakOff) rfl
  | subscribed kinds => exact one (m := .breakOff) rfl
  | streaming kinds => exact one (m := .breakOff) rfl

theorem ends (kept : ServerKept limits w) {k : Nat} {c : SocketConn} (here : w.conns[k]? = some c)
    (holds : c.phase.holdsConnection = true) :
    ∃ labels w', Runs.runSteps (step limits) w labels = some w' ∧
      w'.pools.connections < w.pools.connections := by
  by_cases idle : c.phase.holdsPermit = false
  · exact ends_idle kept here holds idle
  · have querying : c.phase = .querying := by
      cases phase : c.phase with
      | querying => rfl
      | refused | reading | replying | refusing | subscribed | streaming | closed =>
        rw [phase] at idle
        exact absurd rfl idle
    -- the diagnosis comes back first
    let v : SocketServer := { w with
      pools := { w.pools with permits := w.pools.permits + 1 }
      conns := w.conns.set k { c with phase := .replying .table } }
    have stepped : w.step limits (.conn k (.queryBack (.ok ()))) = some v := by
      rw [step, here, Option.bind_some, SocketConn.move, querying]
      rfl
    have there : v.conns[k]? = some { c with phase := .replying .table } :=
      List.getElem?_set_self (List.getElem?_eq_some_iff.mp here).1
    obtain ⟨labels, w', ran, fewer⟩ := ends_idle (kept.step stepped) there rfl rfl
    exact ⟨_ :: labels, w', Runs.runSteps_cons_eq_some.mpr ⟨v, stepped, ran⟩, fewer⟩

/-- No slot is lost: from every state of a run the connections can be brought to an end, and then
the pools are as they were at the start. -/
theorem slots_come_back (ran : Runs.runSteps (step limits) start labels = some w) :
    ∃ later w', Runs.runSteps (step limits) w later = some w' ∧ w'.pools = start.pools ∧
      ∀ c ∈ w'.conns, c.phase.holdsConnection = false := by
  have kept := (ServerKept.start limits).run ran
  clear ran
  induction open_ : w.pools.connections using Nat.strong_induction_on generalizing w with
  | _ n ih =>
    by_cases none : n = 0
    · subst none
      have all : ∀ c ∈ w.conns, c.phase.holdsConnection = false := by
        have counted : w.conns.countP (fun c => c.phase.holdsConnection) = 0 :=
          kept.connections.trans open_
        intro c mem
        exact Bool.eq_false_iff.mpr (List.countP_eq_zero.mp counted c mem)
      refine ⟨[], w, rfl, ?_, all⟩
      obtain ⟨inFlight, queries, gate⟩ := kept.queries
      have subscribers : w.pools.subscribers ≤ w.pools.connections :=
        kept.subscribers.le_of_imp kept.connections fun c held => by
          cases phase : c.phase <;> simp_all [ConnPhase.holdsConnection, ConnPhase.holdsSubscription]
      have diagnoses : inFlight ≤ w.pools.connections :=
        queries.le_of_imp kept.connections fun c held => by
          cases phase : c.phase <;> simp_all [ConnPhase.holdsConnection, ConnPhase.holdsPermit]
      rcases pools : w.pools with ⟨connections, subscribers', permits⟩
      rw [pools] at open_ subscribers diagnoses gate
      show _ = Pools.mk 0 0 maxQueriesInFlight
      have zero : connections = 0 := open_
      have unsubscribed : subscribers' = 0 := by
        have few : subscribers' ≤ connections := subscribers
        omega
      have back : permits = maxQueriesInFlight := by
        have whole : permits + inFlight = maxQueriesInFlight := gate
        have few : inFlight ≤ connections := diagnoses
        omega
      rw [zero, unsubscribed, back]
    · have some : ∃ c ∈ w.conns, c.phase.holdsConnection = true := by
        refine List.countP_pos_iff.mp ?_
        have counted : w.conns.countP (fun c => c.phase.holdsConnection) = w.pools.connections :=
          kept.connections
        omega
      obtain ⟨c, mem, holds⟩ := some
      obtain ⟨k, here⟩ := List.mem_iff_getElem?.mp mem
      obtain ⟨first, v, ranFirst, fewer⟩ := ends kept here holds
      obtain ⟨later, w', ranLater, ended⟩ :=
        ih v.pools.connections (open_ ▸ fewer) (kept.run ranFirst) rfl
      exact ⟨first ++ later, w', Runs.runSteps_append_eq_some.mpr ⟨v, ranFirst, ranLater⟩, ended⟩

theorem slots_come_back_accepted :
    ∃ later w', Runs.runSteps (step productionLimits) (start.accept productionLimits) later =
      some w' ∧ w'.pools = start.pools ∧ ∀ c ∈ w'.conns, c.phase.holdsConnection = false :=
  @slots_come_back productionLimits _ [.accept] rfl

end SocketServer

end NetObserver
