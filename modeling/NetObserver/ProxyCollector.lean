import Mathlib.Data.List.Nodup
import Mathlib.Logic.Function.Basic
import NetObserver.LevelSearch
import NetObserver.ProxyRows

/-! The proxy collector: what it reads of the selector group each tick, and what it remembers of a
node's URL tests across ticks. -/

namespace NetObserver

def maxGroupDepth : Nat := 8

/-- One proxy, a group or a node, as the API answers for it. -/
structure ProxyInfo where
  name : String
  kind : String
  now : Option String
  all : List String
  urltest : Option UrlTestEntry

namespace ProxyInfo

/-- The `type` is compared without regard to case. -/
def isKind (i : ProxyInfo) (kind : String) : Bool := i.kind.toList.map Char.toLower == kind.toList

def isGroup (i : ProxyInfo) : Bool := ["selector", "urltest", "fallback"].any i.isKind

def isUrltest (i : ProxyInfo) : Bool := i.isKind "urltest"

def isUntestable (i : ProxyInfo) : Bool := ["direct", "block", "dns"].any i.isKind

end ProxyInfo

inductive UrltestMemory where
  | present
  | absentSince (sinceUs : Int)

/-- Fold one read of a node's history into the memory, with what the sample carries as the
absence. -/
def noteUrltest (memory : String → Option UrltestMemory) (node : String)
    (entry : Option UrlTestEntry) (tsUs : Int) : (String → Option UrltestMemory) × Option Int :=
  match entry, memory node with
  | some _, _ => (Function.update memory node (some .present), none)
  | none, none => (memory, none)
  | none, some (.absentSince sinceUs) => (memory, some sinceUs)
  | none, some .present => (Function.update memory node (some (.absentSince tsUs)), some tsUs)

/-- The names not read before, each once. -/
def freshNames (visited : List String) : List String → List String
  | [] => []
  | name :: names =>
    if name ∈ visited then freshNames visited names
    else name :: freshNames (name :: visited) names

/-- The group's members level by level, `levels` of them at most: the testable leaves in their
order, and every answer by the name asked for. -/
def readLevels (proxies : List String → List (Option ProxyInfo)) :
    Nat → List String → List String → List String × List (String × ProxyInfo)
  | 0, _, _ => ([], [])
  | levels + 1, visited, frontier =>
    let names := freshNames visited frontier
    if names = [] then ([], [])
    else
      let answered := (names.zip (proxies names)).filterMap fun a => a.2.map fun i => (a.1, i)
      let leaves := answered.filter fun a => !a.2.isGroup && !a.2.isUntestable
      let nested := (answered.filter fun a => a.2.isGroup).flatMap fun a => a.2.all
      let rest := readLevels proxies levels (visited ++ names) nested
      (leaves.map Prod.fst ++ rest.1, answered ++ rest.2)

/-- The node the selection of a group leads to, through as many groups at most. -/
def descend (infos : List (String × ProxyInfo)) : Nat → ProxyInfo → Option String → Option String
  | 0, current, selector => current.now.or selector
  | hops + 1, current, selector =>
    match current.now with
    | none => selector
    | some now =>
      match infos.lookup now with
      | some info => if info.isGroup then descend infos hops info (some now) else some now
      | none => some now

structure GroupView where
  selector : Option String
  leaves : List String
  infos : List (String × ProxyInfo)
  retested : List String

/-- The selected node's reading goes first. -/
def selectedFirst (selector : Option String) (leaves : List String) : List String :=
  match selector with
  | some node => if node ∈ leaves then node :: leaves.erase node else leaves
  | none => leaves

def readGroup (group : Option ProxyInfo) (proxies : List String → List (Option ProxyInfo)) :
    Option GroupView :=
  group.map fun root =>
    let (leaves, answered) := readLevels proxies maxGroupDepth [root.name] root.all
    let infos := (root.name, root) :: answered
    let selector := descend infos maxGroupDepth root none
    { selector := selector
      leaves := selectedFirst selector leaves
      infos := infos
      retested := ((infos.map Prod.snd).filter ProxyInfo.isUrltest).flatMap ProxyInfo.all }

/-- One read of a leaf's history, and whether some URLTest group re-tests the leaf. -/
structure NodeRead where
  node : String
  tsUs : Int
  entry : Option UrlTestEntry
  retested : Bool

def GroupView.reads (v : GroupView) (tsUs : Int) : List NodeRead :=
  v.leaves.filterMap fun node =>
    (v.infos.lookup node).map fun info => ⟨node, tsUs, info.urltest, v.retested.contains node⟩

/-- Only a re-tested leaf goes through the memory. -/
def NodeRead.note (r : NodeRead) (memory : String → Option UrltestMemory) :
    (String → Option UrltestMemory) × Option Int :=
  if r.retested then noteUrltest memory r.node r.entry r.tsUs else (memory, none)

def noteReads (memory : String → Option UrltestMemory) :
    List NodeRead → (String → Option UrltestMemory) × List (NodeRead × Option Int)
  | [] => (memory, [])
  | r :: reads =>
    let (noted, absentSinceUs) := r.note memory
    let rest := noteReads noted reads
    (rest.1, (r, absentSinceUs) :: rest.2)

/-- What the ports answer a tick; a connect is asked for by the endpoint's host and port. -/
structure ProxyAnswers where
  tunCode : Nat
  group : Option ProxyInfo
  proxies : List String → List (Option ProxyInfo)
  nodeEndpoints : List (String × String)
  stall : StallReading
  connect : String → Nat → PingOutcome

def parseU16 (digits : List Char) : Option Nat :=
  let digits := if digits.head? = some '+' then digits.tail else digits
  if digits ≠ [] ∧ digits.all Char.isDigit then
    let value := digits.foldl (fun n c => 10 * n + (c.toNat - '0'.toNat)) 0
    if value < 65536 then some value else none
  else none

/-- An endpoint split at its last `:`; one that is no `host:port` is probed on 443. -/
def endpointAddress (endpoint : String) : String × Nat :=
  let (port, host) := endpoint.toList.reverse.span (· != ':')
  match host, parseU16 port.reverse with
  | _ :: host, some port => (String.ofList host.reverse, port)
  | _, _ => (endpoint, 443)

/-- Each distinct endpoint is connected to once. -/
def probeEndpoints (a : ProxyAnswers) : List (String × PingOutcome) :=
  a.nodeEndpoints.foldl (fun probed node =>
    if probed.any fun p => p.1 == node.2 then probed
    else
      let (host, port) := endpointAddress node.2
      probed ++ [(node.2, a.connect host port)]) []

/-- The collector's tick: the memory it leaves, and the rows. -/
def ProxyAnswers.collect (a : ProxyAnswers) (tier : ProbingTier)
    (memory : String → Option UrltestMemory) (tsUs : Int) :
    (String → Option UrltestMemory) × List ProxySample :=
  let tunCode := if tier.emits .tunProbe then some a.tunCode else none
  let view := readGroup a.group a.proxies
  let stall := if tier.emits .heldStream then a.stall else ⟨none, none⟩
  let probed := if tier.emits .endpointProbe then probeEndpoints a else []
  let (memory, noted) := noteReads memory ((view.map fun v => v.reads tsUs).getD [])
  let urltests := noted.map fun n =>
    ⟨n.1.node, (a.nodeEndpoints.find? fun e => e.1 == n.1.node).map Prod.snd, n.1.entry, n.2⟩
  (memory, buildProxySamples tsUs tunCode (view.bind GroupView.selector) stall probed urltests)

/-- The reads of a tick. -/
def ProxyAnswers.reads (a : ProxyAnswers) (tsUs : Int) : List NodeRead :=
  ((readGroup a.group a.proxies).map fun v => v.reads tsUs).getD []

theorem freshNames_eq (visited names : List String) :
    freshNames visited names = LevelSearch.fresh visited names := by
  induction names generalizing visited with
  | nil => rfl
  | cons name names ih => rw [freshNames, LevelSearch.fresh, ih visited, ih (name :: visited)]

theorem mem_freshNames {visited names : List String} {name : String}
    (mem : name ∈ freshNames visited names) : name ∈ names ∧ name ∉ visited := by
  rw [freshNames_eq] at mem
  exact LevelSearch.mem_fresh.mp mem

theorem nodup_freshNames (visited names : List String) : (freshNames visited names).Nodup := by
  rw [freshNames_eq]
  exact LevelSearch.fresh_nodup visited names

theorem answered_fst_sublist (names : List String) (answers : List (Option ProxyInfo)) :
    (((names.zip answers).filterMap fun a => a.2.map fun i => (a.1, i)).map Prod.fst).Sublist
      names := by
  induction names generalizing answers with
  | nil => exact List.Sublist.refl _
  | cons name names ih =>
    cases answers with
    | nil => exact List.nil_sublist _
    | cons answer answers =>
      rw [List.zip_cons_cons, List.filterMap_cons]
      cases answer with
      | none => exact (ih answers).cons name
      | some info => exact (ih answers).cons_cons name

/-- No leaf is read twice, and none that was visited before. -/
theorem readLevels_leaves (proxies : List String → List (Option ProxyInfo)) (levels : Nat)
    (visited frontier : List String) :
    (readLevels proxies levels visited frontier).1.Nodup ∧
      ∀ leaf ∈ (readLevels proxies levels visited frontier).1, leaf ∉ visited := by
  induction levels generalizing visited frontier with
  | zero => exact ⟨List.nodup_nil, fun leaf mem => absurd mem List.not_mem_nil⟩
  | succ levels ih =>
    rw [readLevels]
    dsimp only
    split
    next => exact ⟨List.nodup_nil, fun leaf mem => absurd mem List.not_mem_nil⟩
    next =>
      generalize nested : List.flatMap _ _ = frontier'
      obtain ⟨restNodup, restFresh⟩ := ih (visited ++ freshNames visited frontier) frontier'
      have level : ((List.filter (fun a : String × ProxyInfo => !a.2.isGroup && !a.2.isUntestable)
          (((freshNames visited frontier).zip (proxies (freshNames visited frontier))).filterMap
            fun a => a.2.map fun i => (a.1, i))).map Prod.fst).Sublist
            (freshNames visited frontier) :=
        (List.filter_sublist.map Prod.fst).trans (answered_fst_sublist _ _)
      refine ⟨List.nodup_append.mpr ⟨(nodup_freshNames visited frontier).sublist level, restNodup,
        ?_⟩, ?_⟩
      · intro leaf here other later same
        subst same
        exact restFresh leaf later (List.mem_append_right visited (level.subset here))
      · intro leaf mem seen
        rcases List.mem_append.mp mem with here | later
        · exact (mem_freshNames (level.subset here)).2 seen
        · exact restFresh leaf later (List.mem_append_left _ seen)

theorem selectedFirst_perm (selector : Option String) (leaves : List String) :
    (selectedFirst selector leaves).Perm leaves := by
  unfold selectedFirst
  split
  next node =>
    split
    next listed => exact (List.perm_cons_erase listed).symm
    next => exact List.Perm.refl _
  next => exact List.Perm.refl _

theorem readGroup_leaves_nodup {group : Option ProxyInfo}
    {proxies : List String → List (Option ProxyInfo)} {v : GroupView}
    (read : readGroup group proxies = some v) : v.leaves.Nodup := by
  obtain ⟨root, -, rfl⟩ := Option.map_eq_some_iff.mp read
  exact (selectedFirst_perm _ _).nodup_iff.mpr (readLevels_leaves _ _ _ _).1

/-- A tick reads a node's history once at most. -/
theorem ProxyAnswers.reads_nodup (a : ProxyAnswers) (tsUs : Int) :
    ((a.reads tsUs).map NodeRead.node).Nodup := by
  unfold reads
  cases read : readGroup a.group a.proxies with
  | none => exact List.nodup_nil
  | some v =>
    have sub : ((v.reads tsUs).map NodeRead.node).Sublist v.leaves := by
      unfold GroupView.reads
      generalize v.leaves = leaves
      induction leaves with
      | nil => exact List.Sublist.refl _
      | cons leaf leaves ih =>
        rw [List.filterMap_cons]
        cases v.infos.lookup leaf with
        | none => exact ih.cons leaf
        | some info => exact ih.cons_cons leaf
    exact (readGroup_leaves_nodup read).sublist sub

theorem ProxyAnswers.tsUs_of_mem_reads {a : ProxyAnswers} {tsUs : Int} {r : NodeRead}
    (mem : r ∈ a.reads tsUs) : r.tsUs = tsUs := by
  unfold reads at mem
  cases read : readGroup a.group a.proxies with
  | none =>
    rw [read] at mem
    cases mem
  | some v =>
    rw [read] at mem
    obtain ⟨leaf, -, mapped⟩ := List.mem_filterMap.mp mem
    obtain ⟨info, -, rfl⟩ := Option.map_eq_some_iff.mp mapped
    rfl

/-- A row that carries a reading carries one of the tick's, with its absence. -/
def Carries (tests : List UrlTest) (r : ProxySample) : Prop :=
  ∀ node, r.urltestNode = some node →
    ∃ t ∈ tests, t.node = node ∧ t.absentSinceUs = r.urltestAbsentSinceUs

theorem carries_placeTest {shared : ProxySample} {tests : List UrlTest} {t : UrlTest} (listed : t ∈ tests)
    {rows : List ProxySample} (carries : ∀ r ∈ rows, r.tsUs = shared.tsUs ∧ Carries tests r) :
    ∀ r ∈ placeTest shared rows t, r.tsUs = shared.tsUs ∧ Carries tests r := by
  have rides (r : ProxySample) : Carries tests (t.ride r) := by
    intro node named
    exact ⟨t, listed, Option.some.inj named, rfl⟩
  intro r mem
  unfold placeTest at mem
  split at mem
  next home found =>
    obtain ⟨i, at_i⟩ := List.mem_iff_getElem?.mp mem
    rw [List.getElem?_modify] at at_i
    obtain ⟨old, from_old, rfl⟩ := Option.map_eq_some_iff.mp at_i
    obtain ⟨time, carried⟩ := carries old (List.mem_of_getElem? from_old)
    split
    · exact ⟨time, rides old⟩
    · exact ⟨time, carried⟩
  next =>
    rcases List.mem_append.mp mem with old | added
    · exact carries r old
    · rw [List.mem_singleton.mp added]
      exact ⟨rfl, rides _⟩

theorem carries_foldl {shared : ProxySample} {tests placed : List UrlTest} (sub : placed ⊆ tests)
    {rows : List ProxySample} (carries : ∀ r ∈ rows, r.tsUs = shared.tsUs ∧ Carries tests r) :
    ∀ r ∈ placed.foldl (placeTest shared) rows, r.tsUs = shared.tsUs ∧ Carries tests r := by
  induction placed generalizing rows with
  | nil => exact carries
  | cons t placed ih =>
    have rest : placed ⊆ tests := fun x later => sub (List.mem_cons_of_mem t later)
    exact ih rest (carries_placeTest (sub List.mem_cons_self) carries)

theorem carries_buildProxySamples {tsUs : Int} {tunCode : Option Nat} {selector : Option String}
    {stall : StallReading} {probed : List (String × PingOutcome)} {tests : List UrlTest} :
    ∀ r ∈ buildProxySamples tsUs tunCode selector stall probed tests,
      r.tsUs = tsUs ∧ Carries tests r := by
  intro r mem
  unfold buildProxySamples at mem
  rw [(List.mergeSort_perm _ _).mem_iff] at mem
  refine carries_foldl (List.Subset.refl tests) ?_ r mem
  intro row first
  have bare : row.tsUs = tsUs ∧ row.urltestNode = none := by
    split at first
    · rw [List.mem_singleton.mp first]
      exact ⟨rfl, rfl⟩
    · obtain ⟨p, -, rfl⟩ := List.mem_map.mp first
      exact ⟨rfl, rfl⟩
  refine ⟨bare.1, fun node named => ?_⟩
  rw [bare.2] at named
  cases named

/-- The rows of a tick carry what the memory made of its reads. -/
theorem ProxyAnswers.carries_collect {a : ProxyAnswers} {tier : ProbingTier}
    {memory : String → Option UrltestMemory} {tsUs : Int} :
    (a.collect tier memory tsUs).1 = (noteReads memory (a.reads tsUs)).1 ∧
      ∀ r ∈ (a.collect tier memory tsUs).2, r.tsUs = tsUs ∧ ∀ node, r.urltestNode = some node →
        ∃ n ∈ (noteReads memory (a.reads tsUs)).2, n.1.node = node ∧
          n.2 = r.urltestAbsentSinceUs := by
  refine ⟨rfl, fun r mem => ?_⟩
  obtain ⟨time, carried⟩ := carries_buildProxySamples r mem
  refine ⟨time, fun node named => ?_⟩
  obtain ⟨t, listed, same, absent⟩ := carried node named
  obtain ⟨n, noted, rfl⟩ := List.mem_map.mp listed
  exact ⟨n, noted, same, absent⟩

end NetObserver
