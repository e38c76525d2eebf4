import NetObserver.ProxyCollector

/-! The reading of the selector group: which names are asked for, which leaves it lists, and where
the selection leads. -/

namespace NetObserver

open LevelSearch

/-- The names that the levels of a reading ask for, in the order in which they do. -/
def askedLevels (proxies : List String → List (Option ProxyInfo)) :
    Nat → List String → List String → List String
  | 0, _, _ => []
  | levels + 1, visited, frontier =>
    let names := freshNames visited frontier
    if names = [] then []
    else
      let answered := (names.zip (proxies names)).filterMap fun a => a.2.map fun i => (a.1, i)
      let nested := (answered.filter fun a => a.2.isGroup).flatMap fun a => a.2.all
      names ++ askedLevels proxies levels (visited ++ names) nested

namespace ProxyInfo

/-- A node whose history is read. -/
def isLeaf (i : ProxyInfo) : Bool := !i.isGroup && !i.isUntestable

/-- The members of a group; a node has none. -/
def members (i : ProxyInfo) : List String := if i.isGroup then i.all else []

end ProxyInfo

section

variable (root : ProxyInfo) (answer : String → Option ProxyInfo)

/-- The graph of the groups: under the root its own members, under any other name what the answer
for it lists. -/
def groupMembers (name : String) : List String :=
  if name = root.name then root.all else ((answer name).map ProxyInfo.members).getD []

/-- A name that some walk through at most so many levels of answered groups leads to; the root is
the first of them. -/
def Under (levels : Nat) (name : String) : Prop :=
  ∃ k < levels, At (groupMembers root answer) root.all k name

def groupAsked : List String :=
  askedLevels (List.map answer) maxGroupDepth [root.name] root.all

end

/-- Following `now` from a group through answered groups, so many times. -/
inductive FollowsNow (infos : List (String × ProxyInfo)) : Nat → ProxyInfo → String → Prop
  | first {current : ProxyInfo} {name : String} (now : current.now = some name) :
      FollowsNow infos 1 current name
  | through {current info : ProxyInfo} {group name : String} {hops : Nat}
      (now : current.now = some group) (answered : infos.lookup group = some info)
      (isGroup : info.isGroup = true) (rest : FollowsNow infos hops info name) :
      FollowsNow infos (hops + 1) current name

/-- The selector is where following `now` ends, after so many hops at most; there is none where the
root selects nothing. -/
def SelectedWithin (infos : List (String × ProxyInfo)) (most : Nat) (root : ProxyInfo)
    (selector : Option String) : Prop :=
  match selector with
  | none => root.now = none
  | some name => ∃ hops ≤ most, FollowsNow infos hops root name ∧
      (hops = most ∨ ∀ other, ¬ FollowsNow infos (hops + 1) root other)

section Levels

variable {root : ProxyInfo} {answer : String → Option ProxyInfo} {visited frontier : List String}
  {levels : Nat}

theorem answered_per_name (names : List String) :
    ((names.zip (names.map answer)).filterMap fun a => a.2.map fun i => (a.1, i)) =
      names.filterMap fun name => (answer name).map fun i => (name, i) := by
  induction names with
  | nil => rfl
  | cons name names ih =>
    rw [List.map_cons, List.zip_cons_cons, List.filterMap_cons, List.filterMap_cons, ih]

theorem leaves_per_name (names : List String) :
    (((names.filterMap fun name => (answer name).map fun i => (name, i)).filter
      fun a => !a.2.isGroup && !a.2.isUntestable).map Prod.fst) =
      names.filter fun name => (answer name).any ProxyInfo.isLeaf := by
  induction names with
  | nil => rfl
  | cons name names ih =>
    rw [List.filterMap_cons, List.filter_cons, ← ih]
    cases answer name with
    | none => rfl
    | some info =>
      have leaf : (!info.isGroup && !info.isUntestable) = info.isLeaf := rfl
      rw [Option.map_some, Option.any_some, List.filter_cons, leaf]
      cases info.isLeaf with
      | true => rfl
      | false => rfl

theorem nested_per_name {names : List String} (unrooted : root.name ∉ names) :
    (((names.filterMap fun name => (answer name).map fun i => (name, i)).filter
      fun a => a.2.isGroup).flatMap fun a => a.2.all) = names.flatMap (groupMembers root answer) := by
  induction names with
  | nil => rfl
  | cons name names ih =>
    rw [List.mem_cons, not_or] at unrooted
    have own : groupMembers root answer name = ((answer name).map ProxyInfo.members).getD [] :=
      if_neg (Ne.symm unrooted.1)
    rw [List.flatMap_cons, own, ← ih unrooted.2, List.filterMap_cons]
    cases answer name with
    | none => rfl
    | some info =>
      simp only [Option.map_some, Option.getD_some, ProxyInfo.members]
      cases group : info.isGroup with
      | true => rw [List.filter_cons_of_pos (by exact group), List.flatMap_cons, if_pos rfl]
      | false =>
        rw [List.filter_cons_of_neg (by simp [group]), if_neg (by simp), List.nil_append]

theorem askedLevels_eq (rooted : root.name ∈ visited) :
    askedLevels (List.map answer) levels visited frontier =
      found (groupMembers root answer) levels visited frontier := by
  induction levels generalizing visited frontier with
  | zero => rfl
  | succ levels ih =>
    have unrooted : root.name ∉ freshNames visited frontier :=
      fun mem => (mem_freshNames mem).2 rooted
    simp only [askedLevels, found, answered_per_name, nested_per_name unrooted, ← freshNames_eq]
    rw [ih (List.mem_append_left _ rooted)]
    split
    next empty => rw [empty, List.flatMap_nil, found_nil, List.nil_append]
    next => rfl

/-- What the levels read, off the names that they ask for. -/
theorem readLevels_eq (rooted : root.name ∈ visited) :
    readLevels (List.map answer) levels visited frontier =
      ((askedLevels (List.map answer) levels visited frontier).filter
          fun name => (answer name).any ProxyInfo.isLeaf,
        (askedLevels (List.map answer) levels visited frontier).filterMap
          fun name => (answer name).map fun i => (name, i)) := by
  induction levels generalizing visited frontier with
  | zero => rfl
  | succ levels ih =>
    rw [readLevels, askedLevels]
    dsimp only
    split
    next => rfl
    next =>
      rw [ih (List.mem_append_left _ rooted), answered_per_name, leaves_per_name,
        List.filter_append, List.filterMap_append]

theorem groupAsked_eq : groupAsked root answer =
    found (groupMembers root answer) maxGroupDepth [root.name] root.all :=
  askedLevels_eq (List.mem_singleton_self root.name)

theorem groupAsked_nodup : (groupAsked root answer).Nodup := by
  rw [groupAsked_eq]
  exact found_nodup _ _ _ _

/-- The names asked for are those under the root, the root itself left out. -/
theorem mem_groupAsked {name : String} :
    name ∈ groupAsked root answer ↔ name ≠ root.name ∧ Under root answer maxGroupDepth name := by
  have closed : ∀ v ∈ [root.name], ∀ w ∈ groupMembers root answer v,
      w ∈ [root.name] ∨ w ∈ root.all := by
    intro v mem w edge
    rw [List.mem_singleton.mp mem, groupMembers, if_pos rfl] at edge
    exact .inr edge
  rw [groupAsked_eq, mem_found_iff closed, List.mem_singleton]
  rfl

end Levels

section Descent

variable {infos : List (String × ProxyInfo)}

/-- More than one hop leads through the selected name, which is an answered group. -/
theorem follows_through {k : Nat} {current : ProxyInfo} {now other : String}
    (selects : current.now = some now) (follows : FollowsNow infos (k + 2) current other) :
    ∃ info, infos.lookup now = some info ∧ info.isGroup = true ∧
      FollowsNow infos (k + 1) info other := by
  cases follows with
  | through now' answered group rest =>
    cases selects.symm.trans now'
    exact ⟨_, answered, group, rest⟩

/-- A group that selects nothing leads nowhere. -/
theorem not_follows {k : Nat} {current : ProxyInfo} (none_ : current.now = none) (other : String) :
    ¬ FollowsNow infos k current other := by
  intro follows
  cases follows with
  | first now =>
    rw [none_] at now
    cases now
  | through now _ _ _ =>
    rw [none_] at now
    cases now

theorem descend_none {hops : Nat} {current : ProxyInfo} (none_ : current.now = none)
    (before : Option String) : descend infos hops current before = before := by
  cases hops with
  | zero =>
    rw [descend, none_]
    rfl
  | succ hops => rw [descend, none_]

/-- Where the descent ends, once the group at hand selects something. -/
theorem descend_selected {hops : Nat} {current : ProxyInfo} {now : String}
    (selects : current.now = some now) (before : Option String) :
    ∃ name, descend infos hops current before = some name ∧
      ∃ k ≤ hops + 1, FollowsNow infos k current name ∧
        (k = hops + 1 ∨ ∀ other, ¬ FollowsNow infos (k + 1) current other) := by
  induction hops generalizing current now before with
  | zero =>
    refine ⟨now, ?_, 1, Nat.le_refl 1, .first selects, .inl rfl⟩
    rw [descend, selects]
    rfl
  | succ hops ih =>
    rw [descend, selects]
    dsimp only
    -- No second hop leaves the name.
    have stops (no : ∀ other, ¬ FollowsNow infos 2 current other) :
        ∃ k ≤ hops + 1 + 1, FollowsNow infos k current now ∧
          (k = hops + 1 + 1 ∨ ∀ other, ¬ FollowsNow infos (k + 1) current other) :=
      ⟨1, by omega, .first selects, .inr no⟩
    cases answered : infos.lookup now with
    | none =>
      refine ⟨now, rfl, stops fun other follows => ?_⟩
      obtain ⟨info, found, -, -⟩ := follows_through selects follows
      rw [answered] at found
      cases found
    | some info =>
      dsimp only
      cases group : info.isGroup with
      | false =>
        refine ⟨now, by simp, stops fun other follows => ?_⟩
        obtain ⟨info', found, group', -⟩ := follows_through selects follows
        cases answered.symm.trans found
        rw [group] at group'
        cases group'
      | true =>
        rw [if_pos rfl]
        cases further : info.now with
        | none =>
          refine ⟨now, descend_none further _, stops fun other follows => ?_⟩
          obtain ⟨info', found, -, rest⟩ := follows_through selects follows
          cases answered.symm.trans found
          exact not_follows further other rest
        | some next =>
          obtain ⟨name, reached, k, short, follows, last⟩ := ih further (some now)
          refine ⟨name, reached, k + 1, Nat.succ_le_succ short,
            .through selects answered group follows, ?_⟩
          rcases last with all | none_
          · exact .inl (congrArg (· + 1) all)
          · refine .inr fun other more => ?_
            obtain ⟨info', found, -, rest⟩ := follows_through selects more
            cases answered.symm.trans found
            exact none_ other rest

theorem descend_selectedWithin (hops : Nat) (root : ProxyInfo) :
    SelectedWithin infos (hops + 1) root (descend infos hops root none) := by
  cases selects : root.now with
  | none =>
    rw [descend_none selects]
    exact selects
  | some now =>
    obtain ⟨name, reached, within⟩ := descend_selected selects none
    rw [reached]
    exact within

end Descent

section View

variable {root : ProxyInfo} {answer : String → Option ProxyInfo}

/-- The view of one reading, put together from the names asked for. -/
def groupView (root : ProxyInfo) (answer : String → Option ProxyInfo) : GroupView :=
  let infos := (root.name, root) ::
    (groupAsked root answer).filterMap fun name => (answer name).map fun i => (name, i)
  let selector := descend infos maxGroupDepth root none
  { selector := selector
    leaves := selectedFirst selector
      ((groupAsked root answer).filter fun name => (answer name).any ProxyInfo.isLeaf)
    infos := infos
    retested := ((infos.map Prod.snd).filter ProxyInfo.isUrltest).flatMap ProxyInfo.all }

theorem readGroup_eq :
    readGroup (some root) (List.map answer) = some (groupView root answer) := by
  unfold readGroup groupView groupAsked
  rw [Option.map_some, readLevels_eq (List.mem_singleton_self root.name)]

theorem mem_leaves {name : String} : name ∈ (groupView root answer).leaves ↔
    name ≠ root.name ∧ Under root answer maxGroupDepth name ∧
      ∃ info, answer name = some info ∧ info.isLeaf = true := by
  rw [groupView, (selectedFirst_perm _ _).mem_iff, List.mem_filter, mem_groupAsked, and_assoc,
    Option.any_eq_true]

theorem leaves_nodup : (groupView root answer).leaves.Nodup := by
  rw [groupView, (selectedFirst_perm _ _).nodup_iff]
  exact groupAsked_nodup.filter _

theorem mem_infos {name : String} {info : ProxyInfo} :
    (name, info) ∈ (groupView root answer).infos ↔ (name = root.name ∧ info = root) ∨
      (name ≠ root.name ∧ Under root answer maxGroupDepth name ∧ answer name = some info) := by
  simp only [groupView, List.mem_cons, Prod.mk.injEq, List.mem_filterMap, mem_groupAsked,
    Option.map_eq_some_iff]
  constructor
  · rintro (own | ⟨asked, ⟨apart, under⟩, told, answered, rfl, rfl⟩)
    · exact .inl own
    · exact .inr ⟨apart, under, answered⟩
  · rintro (own | ⟨apart, under, answered⟩)
    · exact .inl own
    · exact .inr ⟨name, ⟨apart, under⟩, info, answered, rfl, rfl⟩

theorem mem_retested {leaf : String} : leaf ∈ (groupView root answer).retested ↔
    ∃ name group, (name, group) ∈ (groupView root answer).infos ∧ group.isUrltest = true ∧
      leaf ∈ group.all := by
  have shape : (groupView root answer).retested = ((((groupView root answer).infos).map
    Prod.snd).filter ProxyInfo.isUrltest).flatMap ProxyInfo.all := rfl
  rw [shape]
  simp only [List.mem_flatMap, List.mem_filter, List.mem_map, Prod.exists]
  constructor
  · rintro ⟨group, ⟨⟨name, told, held, rfl⟩, kind⟩, lists⟩
    exact ⟨name, told, held, kind, lists⟩
  · rintro ⟨name, group, held, kind, lists⟩
    exact ⟨group, ⟨⟨name, group, held, rfl⟩, kind⟩, lists⟩

theorem lookup_answered (names : List String) (name : String) :
    (names.filterMap fun n => (answer n).map fun i => (n, i)).lookup name =
      if name ∈ names then answer name else none := by
  induction names with
  | nil => rfl
  | cons first names ih =>
    rw [List.filterMap_cons]
    by_cases same : name = first
    · subst same
      rw [if_pos List.mem_cons_self]
      cases answered : answer name with
      | none =>
        rw [Option.map_none, ih, answered]
        split <;> rfl
      | some info => rw [Option.map_some, List.lookup_cons_self]
    · have listed : name ∈ first :: names ↔ name ∈ names := by
        rw [List.mem_cons, or_iff_right same]
      simp only [listed]
      cases answer first with
      | none => exact ih
      | some info =>
        rw [Option.map_some, List.lookup_cons, beq_eq_false_iff_ne.mpr same]
        exact ih

/-- What the view holds under a name. -/
theorem lookup_infos {name : String} {info : ProxyInfo} :
    (groupView root answer).infos.lookup name = some info ↔
      (name = root.name ∧ info = root) ∨
        (name ≠ root.name ∧ Under root answer maxGroupDepth name ∧ answer name = some info) := by
  rw [groupView, List.lookup_cons]
  by_cases own : name = root.name
  · rw [beq_iff_eq.mpr own]
    simp [own, eq_comm]
  · rw [beq_eq_false_iff_ne.mpr own]
    simp only [lookup_answered, own, ne_eq, not_false_eq_true, true_and, false_and, false_or]
    split
    next asked => simp [(mem_groupAsked.mp asked).2]
    next unasked =>
      have outside : ¬ Under root answer maxGroupDepth name :=
        fun under => unasked (mem_groupAsked.mpr ⟨own, under⟩)
      simp [outside]

end View

/-- A view of the group that is exact, its selector reached by so many hops at most. -/
structure ExactView (root : ProxyInfo) (answer : String → Option ProxyInfo) (hops : Nat)
    (view : GroupView) : Prop where
  asked_once : (groupAsked root answer).Nodup
  root_unasked : root.name ∉ groupAsked root answer
  leaves_iff : ∀ name, name ∈ view.leaves ↔ name ≠ root.name ∧
    Under root answer maxGroupDepth name ∧ ∃ info, answer name = some info ∧ info.isLeaf = true
  leaves_nodup : view.leaves.Nodup
  selected_first : ∀ node, view.selector = some node → node ∈ view.leaves →
    view.leaves = node :: ((groupAsked root answer).filter (· ∈ view.leaves)).erase node
  discovery_order : (∀ node, view.selector = some node → node ∉ view.leaves) →
    view.leaves = (groupAsked root answer).filter (· ∈ view.leaves)
  answered_iff : ∀ name info, view.infos.lookup name = some info ↔
    (name = root.name ∧ info = root) ∨
      (name ≠ root.name ∧ Under root answer maxGroupDepth name ∧ answer name = some info)
  selector_within : SelectedWithin view.infos hops root view.selector
  retested_iff : ∀ leaf ∈ view.leaves, leaf ∈ view.retested ↔
    ∃ name group, view.infos.lookup name = some group ∧ group.isUrltest = true ∧ leaf ∈ group.all

/-- The reading of every group, its own members the first of the levels; the selection is followed
one hop further than the levels are read. -/
theorem read_group_exact (root : ProxyInfo) (answer : String → Option ProxyInfo) :
    ∃ view, readGroup (some root) (List.map answer) = some view ∧
      ExactView root answer (maxGroupDepth + 1) view := by
  have discovered : (groupAsked root answer).filter (· ∈ (groupView root answer).leaves) =
      (groupAsked root answer).filter fun name => (answer name).any ProxyInfo.isLeaf := by
    apply List.filter_congr
    intro name asked
    obtain ⟨apart, under⟩ := mem_groupAsked.mp asked
    rw [Bool.eq_iff_iff, decide_eq_true_iff, mem_leaves, Option.any_eq_true]
    simp [apart, under]
  have shape : (groupView root answer).leaves = selectedFirst (groupView root answer).selector
      ((groupAsked root answer).filter fun name => (answer name).any ProxyInfo.isLeaf) := rfl
  refine ⟨groupView root answer, readGroup_eq, ?_⟩
  constructor
  case asked_once => exact groupAsked_nodup
  case root_unasked => exact fun asked => (mem_groupAsked.mp asked).1 rfl
  case leaves_iff => exact fun name => mem_leaves
  case leaves_nodup => exact leaves_nodup
  case selected_first =>
    intro node selected mem
    rw [discovered]
    rw [shape, (selectedFirst_perm _ _).mem_iff] at mem
    rw [shape, selected, selectedFirst, if_pos mem]
  case discovery_order =>
    intro apart
    rw [discovered]
    rw [shape]
    unfold selectedFirst
    split
    next node selected =>
      have outside := apart node selected
      rw [shape, (selectedFirst_perm _ _).mem_iff] at outside
      exact if_neg outside
    next => rfl
  case answered_iff => exact fun name info => lookup_infos
  case selector_within => exact descend_selectedWithin maxGroupDepth root
  case retested_iff =>
    intro leaf _
    simp only [mem_retested, mem_infos, lookup_infos]

def nestedGroup (name : String) : ProxyInfo :=
  if name.length < 10 then ⟨name, "Selector", some (name.push 'g'), [name.push 'g'], none⟩
  else ⟨name, "VLESS", none, [], none⟩

/-- Among the nested groups each hop leads to a name longer by one. -/
theorem follows_nested {infos : List (String × ProxyInfo)}
    (nested : ∀ name info, infos.lookup name = some info → info = nestedGroup name) {hops : Nat}
    {first name : String} (follows : FollowsNow infos hops (nestedGroup first) name) :
    name.length = first.length + hops := by
  have longer : ∀ {first now : String}, (nestedGroup first).now = some now →
      now.length = first.length + 1 := by
    intro first now selects
    unfold nestedGroup at selects
    split at selects
    next =>
      cases selects
      exact String.length_push 'g'
    next => cases selects
  generalize group : nestedGroup first = current at follows
  induction follows generalizing first with
  | first now =>
    rw [← group] at now
    exact longer now
  | through now answered _ _ ih =>
    rw [← group] at now
    have next := ih (nested _ _ answered).symm
    rw [next, longer now]
    omega

/-- Nine groups, each selecting the next one's only member: the ninth hop is followed. -/
theorem selection_followed_nine_hops :
    ∃ view, readGroup (some (nestedGroup "g")) (List.map fun n => some (nestedGroup n)) =
        some view ∧ view.selector = some "gggggggggg" ∧
      ¬ SelectedWithin view.infos maxGroupDepth (nestedGroup "g") view.selector := by
  have selected : (groupView (nestedGroup "g") fun n => some (nestedGroup n)).selector =
      some "gggggggggg" := by decide
  refine ⟨_, readGroup_eq, selected, ?_⟩
  rw [selected]
  rintro ⟨hops, short, follows, _⟩
  have length_ := follows_nested ?_ follows
  · have nine : hops = 9 := by
      have ten : "gggggggggg".length = 10 := rfl
      have one : "g".length = 1 := rfl
      omega
    rw [nine] at short
    exact absurd short (by decide)
  · intro name info held
    rcases lookup_infos.mp held with ⟨rfl, rfl⟩ | ⟨_, _, answered⟩
    · rfl
    · cases answered
      rfl

end NetObserver
