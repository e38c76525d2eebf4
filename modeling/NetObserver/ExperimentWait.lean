import NetObserver.LocalAddresses
import NetObserver.QueryReplies

/-! The operator's `experiment`: the window it asks for, and the wait for that window's report. -/

namespace NetObserver

open StdText

inductive ControlOutcome where
  | ran (result : ControlResult)
  | unsupported (message : String)

/-- The answer to `StartExperiment`; `notes` is what it says of the freeze and the edge's row. -/
def startAnswer (minutes : Nat) (notes : String) : Except String EndTask → ControlResult
  | .error message => ⟨false, message⟩
  | .ok t =>
    ⟨true, "experiment " ++ t.id ++ " started: passive for " ++ minutes.repr ++ " min (was " ++
      t.opened.tierBefore.asStr ++ "); " ++ notes⟩

def endMarks : List Char := [':', ',', ';', '.']

def experimentIdFront : List Char := "experiment-".toList

def isExperimentId (token : List Char) : Bool :=
  let rest := token.drop experimentIdFront.length
  experimentIdFront.isPrefixOf token && !rest.isEmpty && rest.all Char.isDigit

/-- The first word of a message that has the shape of a window's id. -/
def experimentIdIn (message : String) : Option String :=
  (((splitWhitespace message.toList).map fun t => t.rdropWhile fun c => endMarks.contains c).find?
    isExperimentId).map String.ofList

def pollEveryS : Nat := 5

def pollGrace : Nat := 24

def maxPollFailures : Nat := 12

/-- The cast to 32 bits wraps. -/
def experimentPolls (minutes : Nat) : Nat := minutes * 60 / pollEveryS % 2 ^ 32 + pollGrace

def readLater (id : String) : String :=
  "the window runs on in the daemon; read it later with `experiment-report " ++ id ++ "`"

def lateText (id : String) (maxPolls : Nat) : String :=
  id ++ " did not report within " ++ maxPolls.repr ++ " polls; " ++ readLater id

def lostText (socket id e : String) : String :=
  "lost net-observerd on " ++ socket ++ " while waiting for " ++ id ++ " (" ++ e ++ "); " ++
    readLater id

def erredText (m : String) : String := "net-observerd returned an error: " ++ m

def cannotReportText (socket m : String) : String :=
  "net-observerd at " ++ socket ++ " cannot report experiments (built before them): " ++ m

/-- The polls from the `k`th on, the last `failures` of those before it lost: the report or why
there is none, and the seconds slept. -/
def pollFrom (socket id : String) (maxPolls : Nat) (ask : Nat → Except String QueryOutcome) :
    Nat → Nat → Nat → Except String QueryTable × Nat
  | 0, k, _ => (.error (lateText id maxPolls), k * pollEveryS)
  | fuel + 1, k, failures =>
    match ask k with
    | .ok (.table t) => (.ok t, k * pollEveryS)
    | .ok (.failed m) =>
      if isExperimentRunning m then pollFrom socket id maxPolls ask fuel (k + 1) 0
      else (.error (erredText m), k * pollEveryS)
    | .ok (.unsupported m) => (.error (cannotReportText socket m), k * pollEveryS)
    | .error e =>
      if maxPollFailures ≤ failures + 1 then (.error (lostText socket id e), k * pollEveryS)
      else pollFrom socket id maxPolls ask fuel (k + 1) (failures + 1)

def awaitExperiment (socket id : String) (maxPolls : Nat) (ask : Nat → Except String QueryOutcome) :
    Except String QueryTable × Nat :=
  pollFrom socket id maxPolls ask maxPolls 0 0

/-- How the command ends short of an error: with the daemon's refusal, without waiting, or with the
report. -/
inductive ExperimentEnd where
  | refused (message : String)
  | started (id : String)
  | reported (t : QueryTable)

def unsupportedWindowText (e : String) : String :=
  "net-observerd cannot run an experiment window (built before it existed): " ++ e

/-- The `experiment` command, with the seconds it slept; `ask` is the poll by the id asked for. -/
def runExperiment (socket : String) (minutes : Nat) (noWait : Bool)
    (start : Except String ControlOutcome) (ask : String → Nat → Except String QueryOutcome) :
    Except String ExperimentEnd × Nat :=
  match start with
  | .error e => (.error e, 0)
  | .ok (.unsupported e) => (.error (unsupportedWindowText e), 0)
  | .ok (.ran result) =>
    if !result.ok then (.ok (.refused result.message), 0)
    else
      match experimentIdIn result.message with
      | none =>
        (.error ("net-observerd accepted the experiment but named no id: " ++ result.message), 0)
      | some id =>
        if noWait then (.ok (.started id), 0)
        else
          let (table, slept) := awaitExperiment socket id (experimentPolls minutes) (ask id)
          (table.map .reported, slept)

/-! The wait, whatever the daemon answers -/

def pollLost (ask : Nat → Except String QueryOutcome) (k : Nat) : Bool :=
  match ask k with
  | .error _ => true
  | .ok _ => false

/-- How many of the last before the `n`th were so. -/
def inRow (p : Nat → Bool) : Nat → Nat
  | 0 => 0
  | n + 1 => if p n then inRow p n + 1 else 0

/-- The polls before the `n`th are waited through. -/
structure Waits (ask : Nat → Except String QueryOutcome) (n : Nat) : Prop where
  through : ∀ i < n, pollLost ask i = true ∨
    ∃ m, ask i = .ok (.failed m) ∧ isExperimentRunning m = true
  quiet : ∀ i ≤ n, inRow (pollLost ask) i < maxPollFailures

/-- How the `n`th poll ends the wait. -/
inductive PollEnds (socket id : String) (maxPolls : Nat) (ask : Nat → Except String QueryOutcome) :
    Nat → Except String QueryTable → Prop where
  | reported {n : Nat} {t : QueryTable} (early : n < maxPolls) (read : ask n = .ok (.table t)) :
    PollEnds socket id maxPolls ask n (.ok t)
  | erred {n : Nat} {m : String} (early : n < maxPolls) (read : ask n = .ok (.failed m))
      (other : isExperimentRunning m = false) :
    PollEnds socket id maxPolls ask n (.error (erredText m))
  | cannot {n : Nat} {m : String} (early : n < maxPolls) (read : ask n = .ok (.unsupported m)) :
    PollEnds socket id maxPolls ask n (.error (cannotReportText socket m))
  | lost {n : Nat} {e : String} (early : n < maxPolls) (read : ask n = .error e)
      (row : maxPollFailures ≤ inRow (pollLost ask) n + 1) :
    PollEnds socket id maxPolls ask n (.error (lostText socket id e))
  | late : PollEnds socket id maxPolls ask maxPolls (.error (lateText id maxPolls))

section

variable {socket id : String} {maxPolls n k : Nat} {ask : Nat → Except String QueryOutcome}
  {r r' : Except String QueryTable}

theorem inRow_succ {p : Nat → Bool} (here : p n = true) : inRow p (n + 1) = inRow p n + 1 := by
  rw [inRow, if_pos here]

theorem inRow_broken {p : Nat → Bool} (here : p n = false) : inRow p (n + 1) = 0 := by
  rw [inRow, if_neg (by rw [here]; exact Bool.false_ne_true)]

theorem Waits.running (waits : Waits ask n) {m : String} (read : ask n = .ok (.failed m))
    (runs : isExperimentRunning m = true) : Waits ask (n + 1) := by
  have found : pollLost ask n = false := by rw [pollLost, read]
  constructor
  · intro i low
    rcases Nat.lt_or_ge i n with before | here
    · exact waits.through i before
    · rw [show i = n by omega]
      exact .inr ⟨m, read, runs⟩
  · intro i low
    rcases Nat.lt_or_ge n i with here | before
    · rw [show i = n + 1 by omega, inRow_broken found]
      exact Nat.zero_lt_succ _
    · exact waits.quiet i before

theorem Waits.lost (waits : Waits ask n) {e : String} (read : ask n = .error e)
    (few : inRow (pollLost ask) n + 1 < maxPollFailures) : Waits ask (n + 1) := by
  have away : pollLost ask n = true := by rw [pollLost, read]
  constructor
  · intro i low
    rcases Nat.lt_or_ge i n with before | here
    · exact waits.through i before
    · rw [show i = n by omega]
      exact .inl away
  · intro i low
    rcases Nat.lt_or_ge n i with here | before
    · rw [show i = n + 1 by omega, inRow_succ away]
      exact few
    · exact waits.quiet i before

theorem pollFrom_ends (fuel : Nat) (waits : Waits ask k) (left : k + fuel = maxPolls) :
    ∃ n, Waits ask n ∧
      PollEnds socket id maxPolls ask n
        (pollFrom socket id maxPolls ask fuel k (inRow (pollLost ask) k)).1 ∧
      (pollFrom socket id maxPolls ask fuel k (inRow (pollLost ask) k)).2 = n * pollEveryS := by
  induction fuel generalizing k with
  | zero =>
    refine ⟨k, waits, ?_, rfl⟩
    rw [show k = maxPolls by omega]
    exact .late
  | succ fuel ih =>
    have early : k < maxPolls := by omega
    rw [pollFrom]
    split
    next t read => exact ⟨k, waits, .reported early read, rfl⟩
    next m read =>
      have found : pollLost ask k = false := by rw [pollLost, read]
      split
      next runs =>
        have rest := ih (waits.running read runs) (by omega)
        rw [inRow_broken found] at rest
        exact rest
      next other => exact ⟨k, waits, .erred early read (Bool.eq_false_iff.mpr other), rfl⟩
    next m read => exact ⟨k, waits, .cannot early read, rfl⟩
    next e read =>
      have away : pollLost ask k = true := by rw [pollLost, read]
      split
      next many => exact ⟨k, waits, .lost early read many, rfl⟩
      next few =>
        have rest := ih (waits.lost read (by omega)) (by omega)
        rw [inRow_succ away] at rest
        exact rest

/-- A poll that ends the wait is waited through by none later. -/
theorem PollEnds.last (ends : PollEnds socket id maxPolls ask n r) (early : n < maxPolls) :
    ¬ Waits ask (n + 1) := by
  intro waits
  have through := waits.through n (Nat.lt_succ_self n)
  unfold pollLost at through
  cases ends with
  | reported _ read => simp [read] at through
  | erred _ read other => simp [read, other] at through
  | cannot _ read => simp [read] at through
  | @lost _ e _ read row =>
    have away : pollLost ask n = true := by rw [pollLost, read]
    have quiet := waits.quiet (n + 1) (Nat.le_refl _)
    rw [inRow_succ away] at quiet
    omega
  | late => exact absurd early (Nat.lt_irrefl _)

theorem Waits.earlier (waits : Waits ask n) (le : k ≤ n) : Waits ask k :=
  ⟨fun i low => waits.through i (by omega), fun i low => waits.quiet i (by omega)⟩

theorem PollEnds.le (ends : PollEnds socket id maxPolls ask n r) : n ≤ maxPolls := by
  cases ends <;> omega

/-- One poll ends the wait, and one way. -/
theorem PollEnds.unique (ends : PollEnds socket id maxPolls ask n r) (waits : Waits ask n)
    (ends' : PollEnds socket id maxPolls ask k r') (waits' : Waits ask k) : n = k ∧ r = r' := by
  have le := ends.le
  have le' := ends'.le
  have same : n = k := by
    rcases Nat.lt_trichotomy n k with before | same | behind
    · exact absurd (waits'.earlier before) (ends.last (by omega))
    · exact same
    · exact absurd (waits.earlier behind) (ends'.last (by omega))
  subst same
  refine ⟨rfl, ?_⟩
  cases ends with
  | reported early read => cases ends' <;> simp_all
  | erred early read other => cases ends' <;> simp_all
  | cannot early read => cases ends' <;> simp_all
  | lost early read row => cases ends' <;> simp_all
  | late => cases ends' <;> first | rfl | omega

/-- The wait ends as the first poll ends it that it does not wait through. -/
theorem await_iff {slept : Nat} : awaitExperiment socket id maxPolls ask = (r, slept) ↔
    ∃ n, Waits ask n ∧ PollEnds socket id maxPolls ask n r ∧ slept = n * pollEveryS := by
  have none_ : Waits ask 0 :=
    ⟨fun i low => absurd low (Nat.not_lt_zero i), fun i low => by
      rw [show i = 0 by omega]
      exact show 0 < 12 by decide⟩
  obtain ⟨n, waits, ends, slept_⟩ :=
    @pollFrom_ends socket id maxPolls 0 ask maxPolls none_ (Nat.zero_add maxPolls)
  constructor
  · intro same
    rw [awaitExperiment] at same
    rw [show inRow (pollLost ask) 0 = 0 from rfl, same] at ends slept_
    exact ⟨n, waits, ends, slept_⟩
  · intro ⟨n', waits', ends', slept'⟩
    obtain ⟨rfl, rfl⟩ := ends.unique waits ends' waits'
    rw [slept', ← slept_]
    rfl

end

/-! The id in the daemon's words -/

theorem experimentId_digits {startUs : Int} (nonneg : 0 ≤ startUs) :
    ∃ front last, (experimentId startUs).toList = experimentIdFront ++ (front ++ [last]) ∧
      ∀ c ∈ front ++ [last], c.isDigit = true := by
  obtain ⟨n, rfl⟩ := Int.eq_ofNat_of_zero_le nonneg
  have whole : (experimentId (n : Int)).toList = experimentIdFront ++ n.repr.toList := by
    rw [experimentId, String.toList_append]
    rfl
  have some_ : n.repr.toList ≠ [] := by
    rw [Nat.toList_repr]
    exact Nat.toDigits_ne_nil
  rw [whole, ← List.dropLast_concat_getLast some_]
  refine ⟨_, _, rfl, fun c mem => ?_⟩
  rw [List.dropLast_concat_getLast some_] at mem
  exact DottedQuad.isDigit_of_mem_repr mem

theorem plain_of_isDigit {c : Char} (digit : c.isDigit = true) : Dhcp.isWhitespace c = false := by
  have low : 48 ≤ c.toNat ∧ c.toNat ≤ 57 := by
    simpa [Char.isDigit, UInt32.le_iff_toNat_le] using digit
  unfold Dhcp.isWhitespace
  simp only [Bool.or_eq_false_iff, Bool.and_eq_false_iff, decide_eq_false_iff_not,
    beq_eq_false_iff_ne]
  omega

theorem experimentIdIn_started {startUs : Int} (nonneg : 0 ≤ startUs) (rest : String) :
    experimentIdIn ("experiment " ++ experimentId startUs ++ " " ++ rest) =
      some (experimentId startUs) := by
  obtain ⟨front, last, whole, digits⟩ := experimentId_digits nonneg
  have digit : last.isDigit = true := digits last (by simp)
  have unmarked : endMarks.contains last = false := by
    rw [List.contains_eq_any_beq, List.any_eq_false]
    intro mark mem same
    rw [eq_of_beq same] at digit
    simp only [endMarks, List.mem_cons, List.not_mem_nil, or_false] at mem
    rcases mem with rfl | rfl | rfl | rfl <;> cases digit
  have kept : (experimentIdFront ++ (front ++ [last])).rdropWhile (fun c => endMarks.contains c) =
      experimentIdFront ++ (front ++ [last]) := by
    rw [← List.append_assoc, List.rdropWhile_concat_neg _ _ _ (by rw [unmarked]; simp)]
  have shaped : isExperimentId (experimentIdFront ++ (front ++ [last])) = true := by
    have digits_ : (front ++ [last]).all Char.isDigit = true := List.all_eq_true.mpr digits
    simp [isExperimentId, digits_]
  have spaced : ("experiment " ++ experimentId startUs ++ " " ++ rest).toList =
      "experiment".toList ++ ' ' ::
        (experimentIdFront ++ (front ++ [last]) ++ ' ' :: rest.toList) := by
    rw [String.toList_append, String.toList_append, String.toList_append, whole]
    simp only [List.append_assoc]
    rfl
  have plain (c : Char) (mem : c ∈ experimentIdFront ++ (front ++ [last])) :
      Dhcp.isWhitespace c = false := by
    rcases List.mem_append.mp mem with word | digit
    · exact unspaced_of_all (show experimentIdFront.all _ = true from rfl) c word
    · exact plain_of_isDigit (digits c digit)
  rw [experimentIdIn, spaced,
    splitWhitespace_cons (unspaced_of_all (show "experiment".toList.all _ = true from rfl))
      (by decide) rfl,
    splitWhitespace_cons plain (by simp) rfl, List.map_cons, List.map_cons, kept,
    List.find?_cons_of_neg (by decide), List.find?_cons_of_pos shaped, Option.map_some, ← whole,
    String.ofList_toList]

/-! The registry over the daemon's steps -/

theorem Experiments.lookup_insert (m : Experiments) (id id' : String) (s : ExperimentState) :
    (m.insert id s).lookup id' = if id' = id then some s else m.lookup id' := by
  unfold Experiments.insert
  by_cases same : id' = id
  · rw [if_pos same, List.lookup_cons, beq_iff_eq.mpr same]
  · rw [if_neg same, List.lookup_cons, beq_eq_false_iff_ne.mpr same]
    change List.lookup id' (List.filter _ m) = _
    induction m with
    | nil => rfl
    | cons entry m ih =>
      obtain ⟨name, state⟩ := entry
      by_cases dropped : name = id
      · rw [List.filter_cons_of_neg (by simp [dropped]), List.lookup_cons, dropped,
          beq_eq_false_iff_ne.mpr same]
        exact ih
      · rw [List.filter_cons_of_pos (by simp [dropped]), List.lookup_cons, List.lookup_cons, ih]

namespace ControlState

variable {localInstant : Int → String} {d d' : ControlState} {label : ControlStep} {id : String}

/-- A step leaves the registry as it is, or files one window in it. -/
theorem step_experiments (stepped : d.step localInstant label = some d') :
    d'.experiments = d.experiments ∨ ∃ id s, d'.experiments = d.experiments.insert id s := by
  cases label with
  | setObserving b peerUid tsUs =>
    cases stepped
    exact .inl rfl
  | setProbing tier peerUid tsUs =>
    cases stepped
    unfold setProbing
    split
    · exact .inl rfl
    · exact .inl rfl
  | startExperiment minutes peerUid tsUs =>
    cases stepped
    unfold startExperiment
    split
    · exact .inl rfl
    split
    · exact .inl rfl
    split
    · exact .inl rfl
    · exact .inl rfl
    · exact .inr ⟨_, _, rfl⟩
  | write row | lose row =>
    obtain ⟨_, _, rest⟩ := Option.bind_eq_some_iff.mp stepped
    cases rest
    exact .inl rfl
  | endWindow task endUs =>
    obtain ⟨t, _, rest⟩ := Option.bind_eq_some_iff.mp stepped
    split at rest
    · cases rest
      exact .inl rfl
    · cases rest
  | readEdges task fault =>
    obtain ⟨t, _, rest⟩ := Option.bind_eq_some_iff.mp stepped
    split at rest
    · cases rest
      exact .inl rfl
    · cases rest
  | close task tsUs =>
    obtain ⟨t, _, rest⟩ := Option.bind_eq_some_iff.mp stepped
    split at rest
    · cases rest
      unfold close
      dsimp only
      split
      · exact .inl rfl
      · exact .inl rfl
    · cases rest
  | file task =>
    obtain ⟨t, _, rest⟩ := Option.bind_eq_some_iff.mp stepped
    split at rest
    · cases rest
      exact .inr ⟨_, _, rfl⟩
    · cases rest

/-- A window once in the registry stays in it. -/
theorem registered_run {labels : List ControlStep}
    (ran : Runs.runSteps (step localInstant) d labels = some d')
    (there : (d.experiments.lookup id).isSome) : (d'.experiments.lookup id).isSome := by
  refine Runs.runSteps_invariant (P := fun d => (d.experiments.lookup id).isSome) ?_ ran there
  intro d label d' stepped held
  rcases step_experiments stepped with same | ⟨name, s, filed⟩
  · rw [same]
    exact held
  · rw [filed, Experiments.lookup_insert]
    split
    · rfl
    · exact held

/-- The window that opens is the one its answer names, and the registry has it. -/
theorem startExperiment_opened {minutes peerUid : Nat} {tsUs : Int} {t : EndTask}
    (opened : d.startExperiment localInstant minutes peerUid tsUs = (d', .ok t)) :
    t.id = experimentId tsUs ∧ (d'.experiments.lookup t.id).isSome ∧
      0 < minutes ∧ minutes ≤ experimentMaxMinutes := by
  unfold startExperiment at opened
  split at opened
  next => cases opened
  next length =>
    split at opened
    next => cases opened
    next =>
      split at opened
      next => cases opened
      next => cases opened
      next shared sw switched =>
        have stamped : sw.edge.tsUs = tsUs := by
          rcases switchProbing_cases d.shared _ (some peerUid) .experiment .always tsUs with
            ⟨answer, other, is⟩ | ⟨_, is⟩ | ⟨_, _, _, is⟩
          · exact absurd (congrArg Prod.snd (is.symm.trans switched)) (other sw)
          · cases is.symm.trans switched
            rfl
          · cases is.symm.trans switched
            rfl
        cases opened
        refine ⟨by rw [stamped], ?_, by omega, by omega⟩
        dsimp only
        rw [Experiments.lookup_insert, if_pos rfl]
        rfl

end ControlState

/-! The wait for a window the daemon opened -/

/-- The daemon as the polls find it: a poll that misses it, or its answer from where it is then. -/
structure PolledDaemon where
  states : Nat → ControlState
  servers : Nat → QueryServer
  down : Nat → Option String

namespace PolledDaemon

def ask (w : PolledDaemon) (id : String) (n : Nat) : Except String QueryOutcome :=
  match w.down n with
  | some e => .error e
  | none => classifyQuery ((w.servers n).handleQuery (.experiment id))

def missed (w : PolledDaemon) (n : Nat) : Bool := (w.down n).isSome

/-- From one poll to the next the daemon goes on, and it answers from its registry. -/
structure Goes (w : PolledDaemon) (localInstant : Int → String) (d : ControlState) : Prop where
  first : ∃ labels, Runs.runSteps (ControlState.step localInstant) d labels = some (w.states 0)
  next : ∀ n, ∃ labels,
    Runs.runSteps (ControlState.step localInstant) (w.states n) labels = some (w.states (n + 1))
  serves : ∀ n, (w.servers n).experiments = (w.states n).experiments

def Running (w : PolledDaemon) (id : String) (n : Nat) : Prop :=
  ∃ endsAtUs, (w.states n).experiments.lookup id = some (.running endsAtUs)

def Filed (w : PolledDaemon) (id : String) (n : Nat) : Prop :=
  (w.states n).experiments.lookup id = some .finished

/-- The polls before the `n`th found the window running or missed the daemon, never too many in a
row. -/
structure HoldsOut (w : PolledDaemon) (id : String) (n : Nat) : Prop where
  running : ∀ i < n, w.missed i = false → w.Running id i
  quiet : ∀ i ≤ n, inRow w.missed i < maxPollFailures

/-- How the wait ends at the `n`th poll. -/
inductive Ends (w : PolledDaemon) (socket id : String) (maxPolls : Nat) :
    Nat → Except String ExperimentEnd → Prop where
  | reported {n : Nat} (early : n < maxPolls) (reached : w.down n = none) (filed : w.Filed id n) :
    Ends w socket id maxPolls n (.ok (.reported ((w.servers n).finishedReport id)))
  | lost {n : Nat} {e : String} (early : n < maxPolls) (down : w.down n = some e)
      (row : maxPollFailures ≤ inRow w.missed n + 1) :
    Ends w socket id maxPolls n (.error (lostText socket id e))
  | late : Ends w socket id maxPolls maxPolls (.error (lateText id maxPolls))

section

variable {w : PolledDaemon} {localInstant : Int → String} {d : ControlState} {id : String}

theorem Goes.registered (goes : w.Goes localInstant d) (there : (d.experiments.lookup id).isSome)
    (n : Nat) : ((w.states n).experiments.lookup id).isSome := by
  induction n with
  | zero =>
    obtain ⟨labels, ran⟩ := goes.first
    exact ControlState.registered_run ran there
  | succ n ih =>
    obtain ⟨labels, ran⟩ := goes.next n
    exact ControlState.registered_run ran ih

theorem ask_missed {n : Nat} {e : String} (down : w.down n = some e) : w.ask id n = .error e := by
  rw [ask, down]

theorem ask_running (goes : w.Goes localInstant d) {n : Nat} (reached : w.down n = none)
    (running : w.Running id n) :
    ∃ m, w.ask id n = .ok (.failed m) ∧ isExperimentRunning m = true := by
  obtain ⟨endsAtUs, held⟩ := running
  rw [← goes.serves n] at held
  have head : (experimentRunningMessage (w.servers n).localInstant id endsAtUs).toList.head? =
      some 'e' := by
    simp only [experimentRunningMessage, String.toList_append, List.append_assoc]
    rfl
  have decodable : startsWith (experimentRunningMessage (w.servers n).localInstant id endsAtUs)
      undecodableRequest = false := startsWith_of_head head rfl (by decide)
  rw [ask, reached]
  dsimp only
  rw [QueryServer.handleQuery_running held, classifyQuery, decodable]
  exact ⟨_, rfl, running_message _ _ _⟩

theorem ask_filed (goes : w.Goes localInstant d) {n : Nat} (reached : w.down n = none)
    (filed : w.Filed id n) : w.ask id n = .ok (.table ((w.servers n).finishedReport id)) := by
  have held : (w.servers n).experiments.lookup id = some .finished := by
    rw [goes.serves n]
    exact filed
  rw [ask, reached]
  dsimp only
  rw [QueryServer.handleQuery_finished held, classifyQuery]

/-- A poll that reaches the daemon finds the window running or filed. -/
theorem Goes.cases (goes : w.Goes localInstant d) (there : (d.experiments.lookup id).isSome)
    (n : Nat) : w.Running id n ∨ w.Filed id n := by
  obtain ⟨s, held⟩ := Option.isSome_iff_exists.mp (goes.registered there n)
  cases s with
  | running endsAtUs => exact .inl ⟨endsAtUs, held⟩
  | finished => exact .inr held

theorem pollLost_ask (goes : w.Goes localInstant d) (there : (d.experiments.lookup id).isSome)
    (n : Nat) : pollLost (w.ask id) n = w.missed n := by
  rw [pollLost, missed]
  cases down : w.down n with
  | some e => rw [ask_missed down, Option.isSome_some]
  | none =>
    rw [Option.isSome_none]
    rcases goes.cases there n with running | filed
    · obtain ⟨m, read, _⟩ := ask_running goes down running
      rw [read]
    · rw [ask_filed goes down filed]

theorem waits_iff (goes : w.Goes localInstant d) (there : (d.experiments.lookup id).isSome)
    (n : Nat) : Waits (w.ask id) n ↔ w.HoldsOut id n := by
  have lost : pollLost (w.ask id) = w.missed := funext (pollLost_ask goes there)
  constructor
  · intro waits
    refine ⟨fun i low reached => ?_, lost ▸ waits.quiet⟩
    have through := waits.through i low
    rw [lost, reached] at through
    obtain ⟨m, read, _⟩ := through.resolve_left Bool.false_ne_true
    have none_ : w.down i = none := Option.not_isSome_iff_eq_none.mp (Bool.eq_false_iff.mp reached)
    refine (goes.cases there i).resolve_right fun filed => ?_
    rw [ask_filed goes none_ filed] at read
    cases read
  · intro holds
    refine ⟨fun i low => ?_, lost ▸ holds.quiet⟩
    rw [lost]
    cases down : w.down i with
    | some e => exact .inl (by rw [missed, down]; rfl)
    | none =>
      have reached : w.missed i = false := by rw [missed, down]; rfl
      exact .inr (ask_running goes down (holds.running i low reached))

theorem ends_iff (goes : w.Goes localInstant d) (there : (d.experiments.lookup id).isSome)
    (socket : String) (maxPolls n : Nat) (r : Except String ExperimentEnd) :
    w.Ends socket id maxPolls n r ↔
      ∃ x, PollEnds socket id maxPolls (w.ask id) n x ∧ x.map .reported = r := by
  have lost : pollLost (w.ask id) = w.missed := funext (pollLost_ask goes there)
  constructor
  · intro ends
    cases ends with
    | reported early reached filed => exact ⟨_, .reported early (ask_filed goes reached filed), rfl⟩
    | lost early down row => exact ⟨_, .lost early (ask_missed down) (lost ▸ row), rfl⟩
    | late => exact ⟨_, .late, rfl⟩
  · intro ⟨x, ends, same⟩
    subst same
    have found (n : Nat) : (∃ e, w.down n = some e ∧ w.ask id n = .error e) ∨
        (w.down n = none ∧ ∃ m, w.ask id n = .ok (.failed m) ∧ isExperimentRunning m = true) ∨
        (w.down n = none ∧ w.Filed id n ∧
          w.ask id n = .ok (.table ((w.servers n).finishedReport id))) := by
      cases down : w.down n with
      | some e => exact .inl ⟨e, rfl, ask_missed down⟩
      | none =>
        rcases goes.cases there n with running | filed
        · exact .inr (.inl ⟨rfl, ask_running goes down running⟩)
        · exact .inr (.inr ⟨rfl, filed, ask_filed goes down filed⟩)
    cases ends with
    | reported early read =>
      rcases found n with ⟨e, _, is⟩ | ⟨_, m, is, _⟩ | ⟨reached, filed, is⟩
      · cases is.symm.trans read
      · cases is.symm.trans read
      · cases is.symm.trans read
        exact .reported early reached filed
    | erred early read other =>
      rcases found n with ⟨e, _, is⟩ | ⟨_, m, is, runs⟩ | ⟨_, _, is⟩
      · cases is.symm.trans read
      · cases is.symm.trans read
        rw [runs] at other
        cases other
      · cases is.symm.trans read
    | cannot early read =>
      rcases found n with ⟨e, _, is⟩ | ⟨_, m, is, _⟩ | ⟨_, _, is⟩
      · cases is.symm.trans read
      · cases is.symm.trans read
      · cases is.symm.trans read
    | lost early read row =>
      rcases found n with ⟨e, down, is⟩ | ⟨_, m, is, _⟩ | ⟨_, _, is⟩
      · cases is.symm.trans read
        exact .lost early down (lost ▸ row)
      · cases is.symm.trans read
      · cases is.symm.trans read
    | late => exact .late

end

end PolledDaemon

/-- The operator's `experiment` waits for the window the daemon opened for it, through any steps the
daemon takes meanwhile: it ends with that window's report at the first poll that finds it filed, and
without one only behind so many lost polls in a row or past the window's length and two minutes. -/
theorem experiment_reports_its_window {localInstant : Int → String} {d d' : ControlState}
    {minutes peerUid : Nat} {tsUs : Int} {t : EndTask} {w : PolledDaemon} (socket notes : String)
    (opened : d.startExperiment localInstant minutes peerUid tsUs = (d', .ok t)) (clock : 0 ≤ tsUs)
    (goes : w.Goes localInstant d') :
    experimentPolls minutes * pollEveryS = minutes * 60 + 120 ∧
      ∀ result slept, runExperiment socket minutes false
          (.ok (.ran (startAnswer minutes notes (.ok t)))) w.ask = (result, slept) ↔
        ∃ n, w.HoldsOut t.id n ∧ w.Ends socket t.id (experimentPolls minutes) n result ∧
          slept = n * pollEveryS := by
  obtain ⟨named, there, some_, short⟩ := ControlState.startExperiment_opened opened
  constructor
  · have few : minutes ≤ 60 := short
    unfold experimentPolls pollEveryS pollGrace
    omega
  intro result slept
  have id_ : experimentIdIn (startAnswer minutes notes (.ok t)).message = some t.id := by
    have words := experimentIdIn_started clock ("started: passive for " ++ minutes.repr ++
      " min (was " ++ t.opened.tierBefore.asStr ++ "); " ++ notes)
    have blank : " started: passive for " = " " ++ "started: passive for " := rfl
    rw [named, ← words, startAnswer, named, blank]
    simp only [String.append_assoc]
  have run : runExperiment socket minutes false
      (.ok (.ran (startAnswer minutes notes (.ok t)))) w.ask =
        ((awaitExperiment socket t.id (experimentPolls minutes) (w.ask t.id)).1.map .reported,
          (awaitExperiment socket t.id (experimentPolls minutes) (w.ask t.id)).2) := by
    rw [runExperiment]
    dsimp only
    rw [id_]
    rfl
  rw [run]
  constructor
  · intro same
    obtain ⟨mapped, slept_⟩ := Prod.mk.inj same
    obtain ⟨n, waits, ends, seconds⟩ := await_iff.mp (Prod.mk.eta (p :=
      awaitExperiment socket t.id (experimentPolls minutes) (w.ask t.id))).symm
    exact ⟨n, (PolledDaemon.waits_iff goes there n).mp waits,
      (PolledDaemon.ends_iff goes there _ _ _ _).mpr ⟨_, ends, mapped⟩, slept_ ▸ seconds⟩
  · intro ⟨n, holds, ends, seconds⟩
    obtain ⟨x, ends_, mapped⟩ := (PolledDaemon.ends_iff goes there _ _ _ _).mp ends
    have whole := await_iff.mpr ⟨n, (PolledDaemon.waits_iff goes there n).mpr holds, ends_, seconds⟩
    rw [whole, mapped]

/-- A minute's window, opened at the epoch by an operator of an active daemon. -/
def minuteOpened : ControlState :=
  ((ControlState.start .active []).startExperiment (fun _ => "") 1 501 0).1

def minuteTask : EndTask := ⟨"experiment-0", ⟨0, 1, .active, 501⟩, 1, .asleep⟩

def minuteClosing : List ControlStep :=
  [.endWindow 0 60000000, .readEdges 0 none, .close 0 60000001, .file 0]

def minuteFiled : ControlState :=
  (Runs.runSteps (ControlState.step fun _ => "") minuteOpened minuteClosing).getD minuteOpened

/-- The second poll misses the daemon; by the third the window is filed. -/
def minutePolled : PolledDaemon where
  states := fun n => if n < 2 then minuteOpened else minuteFiled
  servers := fun n =>
    { idleServer with
      experiments := (if n < 2 then minuteOpened else minuteFiled).experiments
      finishedReport := fun id => ⟨["id"], [[id]]⟩ }
  down := fun n => if n = 1 then some "Connection refused (os error 61)" else none

theorem minute_goes : minutePolled.Goes (fun _ => "") minuteOpened := by
  refine ⟨⟨[], rfl⟩, fun n => ?_, fun n => rfl⟩
  rcases Nat.lt_trichotomy n 1 with before | here | behind
  · refine ⟨[], ?_⟩
    rw [show n = 0 by omega]
    rfl
  · refine ⟨minuteClosing, ?_⟩
    rw [here]
    rfl
  · refine ⟨[], ?_⟩
    have late : ¬ n < 2 := by omega
    have later : ¬ n + 1 < 2 := by omega
    change some (if n < 2 then _ else _) = some (if n + 1 < 2 then _ else _)
    rw [if_neg late, if_neg later]

theorem experiment_reports_its_window_minute :
    runExperiment "/var/run/net-observer.sock" 1 false
      (.ok (.ran (startAnswer 1 "froze 2 pcap file(s) at the start" (.ok minuteTask))))
      minutePolled.ask = (.ok (.reported ⟨["id"], [["experiment-0"]]⟩), 10) := by
  have told := experiment_reports_its_window (w := minutePolled) "/var/run/net-observer.sock"
    "froze 2 pcap file(s) at the start"
    (show (ControlState.start .active []).startExperiment (fun _ => "") 1 501 0 =
      (minuteOpened, .ok minuteTask) from rfl) (Int.le_refl 0) minute_goes
  refine (told.2 _ _).mpr ⟨2, ⟨fun i low reached => ?_, fun i low => ?_⟩, ?_, rfl⟩
  · rw [show i = 0 by
      rcases Nat.lt_or_ge i 1 with first | second
      · omega
      · rw [show i = 1 by omega] at reached
        cases reached]
    exact ⟨60000000, rfl⟩
  · rcases Nat.lt_trichotomy i 1 with first | second | third
    · rw [show i = 0 by omega]
      exact show 0 < 12 by decide
    · rw [second]
      exact show 0 < 12 by decide
    · rw [show i = 2 by omega]
      exact show 1 < 12 by decide
  · have early : 2 < experimentPolls 1 := by decide
    exact .reported early rfl rfl

end NetObserver
