import Mathlib.Logic.Function.Basic
import NetObserver.Episodes
import NetObserver.ExperimentWindow

/-! Experiment windows as a protocol of roles: who may open one, and who closes it. -/

namespace NetObserver

open Episodes

theorem Experiments.mem_insert {m : Experiments} {id : String} {s : ExperimentState}
    {entry : String × ExperimentState} :
    entry ∈ m.insert id s ↔ entry = (id, s) ∨ (entry ∈ m ∧ entry.1 ≠ id) := by
  simp [Experiments.insert]

theorem Experiments.keys_insert {m : Experiments} (keys : (m.map Prod.fst).Nodup) (id : String)
    (s : ExperimentState) : ((m.insert id s).map Prod.fst).Nodup := by
  have kept : ((List.filter (fun entry => entry.1 != id) m).map Prod.fst).Nodup :=
    keys.sublist (List.filter_sublist.map Prod.fst)
  refine List.nodup_cons.mpr ⟨?_, kept⟩
  simp

/-- What a thread is to the windows. -/
inductive WindowRole where
  | outside
  | holding
  | opening (startUs : Int)
  | running (id : String) (startUs : Int)
  | closing (id : String) (startUs : Int)
  | closed (startUs : Int)

namespace WindowRole

/-- It passed the registry's check and keeps the registry locked. -/
def holds : WindowRole → Bool
  | holding | opening _ => true
  | outside | running .. | closing .. | closed _ => false

/-- The window whose registry entry still reads as running. -/
def unfiled? : WindowRole → Option String
  | running id _ | closing id _ => some id
  | outside | holding | opening _ | closed _ => none

/-- The window that has its opening edge and not yet its closing one. -/
def awaiting? : WindowRole → Option Int
  | opening startUs | running _ startUs => some startUs
  | outside | holding | closing .. | closed _ => none

def ended? : WindowRole → Option Int
  | closing _ startUs | closed startUs => some startUs
  | outside | holding | opening _ | running .. => none

end WindowRole

structure Windows where
  roles : Nat → WindowRole
  registryLock : Option Nat
  experiments : Experiments
  brackets : List (Episodes.Event Int Int)
  clockUs : Int

namespace Windows

inductive Step : Windows → Windows → Prop where
  | quiet {w w' : Windows} (roles : w'.roles = w.roles)
      (lock : ∀ k, (w.roles k).holds = true → w.registryLock = some k → w'.registryLock = some k)
      (experiments : w'.experiments = w.experiments) (brackets : w'.brackets = w.brackets)
      (clock : w.clockUs ≤ w'.clockUs) : Step w w'
  | hold {w : Windows} {k : Nat} (outside : w.roles k = .outside) (free : w.registryLock = none)
      (idle : w.experiments.running? = none) :
      Step w { w with
        roles := Function.update w.roles k .holding
        registryLock := some k }
  | drop {w : Windows} {k : Nat} (holding : w.roles k = .holding) (lock : Option Nat) :
      Step w { w with
        roles := Function.update w.roles k .outside
        registryLock := lock }
  | opens {w : Windows} {k : Nat} {tsUs : Int} (holding : w.roles k = .holding)
      (later : w.clockUs < tsUs) :
      Step w { w with
        roles := Function.update w.roles k (.opening tsUs)
        brackets := w.brackets ++ [.opens tsUs tsUs]
        clockUs := tsUs }
  | spawns {w : Windows} {k n : Nat} {startUs endsAtUs : Int} {id : String}
      (opening : w.roles k = .opening startUs) (fresh : w.roles n = .outside) (lock : Option Nat) :
      Step w { w with
        roles := Function.update (Function.update w.roles k .outside) n (.running id startUs)
        registryLock := lock
        experiments := w.experiments.insert id (.running endsAtUs) }
  | closes {w : Windows} {k : Nat} {tsUs startUs : Int} {id : String}
      (running : w.roles k = .running id startUs) (later : w.clockUs < tsUs) :
      Step w { w with
        roles := Function.update w.roles k (.closing id startUs)
        brackets := w.brackets ++ [.closes startUs tsUs]
        clockUs := tsUs }
  | files {w : Windows} {k : Nat} {startUs : Int} {id : String}
      (closing : w.roles k = .closing id startUs) (free : w.registryLock = none) :
      Step w { w with
        roles := Function.update w.roles k (.closed startUs)
        experiments := w.experiments.insert id .finished }

/-- One window at a time: whoever holds the registry found it free, and one end task at most
has a window to close. -/
structure Exclusive (roles : Nat → WindowRole) (lock : Option Nat) (experiments : Experiments) :
    Prop where
  locked : ∀ k, (roles k).holds = true → lock = some k
  alone : ∀ j k, (roles j).holds = true → (roles k).unfiled? = none
  one : ∀ j k, (roles j).unfiled? ≠ none → (roles k).unfiled? ≠ none → j = k
  registered : ∀ k id, (roles k).unfiled? = some id →
    ∃ endsAtUs, (id, ExperimentState.running endsAtUs) ∈ experiments
  owned : ∀ id endsAtUs, (id, ExperimentState.running endsAtUs) ∈ experiments →
    ∃ k, (roles k).unfiled? = some id
  keys : (experiments.map Prod.fst).Nodup

/-- The brackets alternate; the one left open is that of the window awaiting its closing edge. -/
structure Bracketed (roles : Nat → WindowRole) (brackets : List (Episodes.Event Int Int)) (clockUs : Int) :
    Prop where
  pending : ∃ pending, Alternates none brackets pending ∧
    (∀ k startUs, (roles k).awaiting? = some startUs → pending = some (startUs, startUs)) ∧
    ((∀ k, (roles k).awaiting? = none) → pending = none)
  stamps : ∀ startUs ∈ openedKeys brackets, startUs ≤ clockUs
  distinct : (openedKeys brackets).Nodup
  ended : ∀ k startUs, (roles k).ended? = some startUs → startUs ∈ closedKeys brackets

section

variable {roles : Nat → WindowRole} {lock : Option Nat} {experiments : Experiments}

/-- A role may change while it keeps out of the windows to close. -/
theorem Exclusive.update {k : Nat} {role : WindowRole} {lock' : Option Nat}
    (inv : Exclusive roles lock experiments) (before : (roles k).unfiled? = none)
    (after : role.unfiled? = none) (sole : ∀ j, j ≠ k → (roles j).holds = false)
    (holder : role.holds = true → lock' = some k ∧ ∀ j, (roles j).unfiled? = none) :
    Exclusive (Function.update roles k role) lock' experiments := by
  have unfiled (j : Nat) : (Function.update roles k role j).unfiled? = (roles j).unfiled? := by
    rcases eq_or_ne j k with rfl | apart
    · rw [Function.update_self, before, after]
    · rw [Function.update_of_ne apart]
  have holds (j : Nat) (held : (Function.update roles k role j).holds = true) :
      j = k ∧ role.holds = true := by
    rcases eq_or_ne j k with rfl | apart
    · rw [Function.update_self] at held
      exact ⟨rfl, held⟩
    · rw [Function.update_of_ne apart, sole j apart] at held
      cases held
  refine ⟨?_, ?_, ?_, ?_, ?_, inv.keys⟩
  · intro j held
    obtain ⟨rfl, own⟩ := holds j held
    exact (holder own).1
  · intro i j held
    rw [unfiled]
    exact (holder (holds i held).2).2 j
  · intro i j first second
    rw [unfiled] at first second
    exact inv.one i j first second
  · intro j id found
    rw [unfiled] at found
    exact inv.registered j id found
  · intro id endsAtUs mem
    obtain ⟨j, found⟩ := inv.owned id endsAtUs mem
    exact ⟨j, (unfiled j).trans found⟩

theorem Exclusive.sole (inv : Exclusive roles lock experiments) {k : Nat}
    (holds : (roles k).holds = true) : ∀ j, j ≠ k → (roles j).holds = false := by
  intro j apart
  by_contra held
  rw [Bool.not_eq_false] at held
  have other := inv.locked j held
  rw [inv.locked k holds] at other
  exact apart (Option.some.inj other).symm

theorem Exclusive.unlocked (inv : Exclusive roles lock experiments) (free : lock = none)
    (j : Nat) : (roles j).holds = false := by
  by_contra held
  rw [Bool.not_eq_false] at held
  have locked := inv.locked j held
  rw [free] at locked
  cases locked

/-- With no window running nobody has one to close. -/
theorem Exclusive.none_unfiled (inv : Exclusive roles lock experiments)
    (idle : experiments.running? = none) (k : Nat) : (roles k).unfiled? = none := by
  cases found : (roles k).unfiled? with
  | none => rfl
  | some id =>
    obtain ⟨endsAtUs, mem⟩ := inv.registered k id found
    exact absurd mem (Experiments.not_mem_of_running?_none idle id endsAtUs)

/-- The window's end task takes over from the request that opened it. -/
theorem Exclusive.spawn {k n : Nat} {startUs endsAtUs : Int} {id : String} {lock' : Option Nat}
    (inv : Exclusive roles lock experiments) (opening : roles k = .opening startUs) :
    Exclusive (Function.update (Function.update roles k .outside) n (.running id startUs)) lock'
      (experiments.insert id (.running endsAtUs)) := by
  have held : (roles k).holds = true := by rw [opening]; rfl
  have after (j : Nat) :
      (j = n ∧ Function.update (Function.update roles k .outside) n (.running id startUs) j =
        .running id startUs) ∨
      (j ≠ n ∧ (Function.update (Function.update roles k .outside) n (.running id startUs)
        j).unfiled? = none ∧
        (Function.update (Function.update roles k .outside) n (.running id startUs) j).holds =
          false) := by
    rcases eq_or_ne j n with rfl | other
    · exact .inl ⟨rfl, Function.update_self ..⟩
    · refine .inr ⟨other, ?_⟩
      rw [Function.update_of_ne other]
      rcases eq_or_ne j k with rfl | elsewhere
      · rw [Function.update_self]
        exact ⟨rfl, rfl⟩
      · rw [Function.update_of_ne elsewhere]
        exact ⟨inv.alone k j held, inv.sole held j elsewhere⟩
  have idle (j : Nat) :
      (Function.update (Function.update roles k .outside) n (.running id startUs) j).holds =
        false := by
    rcases after j with ⟨_, role⟩ | ⟨_, _, role⟩
    · rw [role]
      rfl
    · exact role
  refine ⟨?_, ?_, ?_, ?_, ?_, Experiments.keys_insert inv.keys _ _⟩
  · intro j holds
    rw [idle] at holds
    cases holds
  · intro i j holds
    rw [idle] at holds
    cases holds
  · intro i j first second
    rcases after i with ⟨rfl, _⟩ | ⟨_, role, _⟩
    · rcases after j with ⟨rfl, _⟩ | ⟨_, role, _⟩
      · rfl
      · exact absurd role second
    · exact absurd role first
  · intro j id' found
    rcases after j with ⟨_, role⟩ | ⟨_, role, _⟩
    · rw [role] at found
      cases found
      exact ⟨endsAtUs, Experiments.mem_insert.mpr (.inl rfl)⟩
    · rw [role] at found
      cases found
  · intro id' endsAtUs' mem
    rcases Experiments.mem_insert.mp mem with same | ⟨old, _⟩
    · cases same
      refine ⟨n, ?_⟩
      rw [Function.update_self]
      rfl
    · obtain ⟨j, found⟩ := inv.owned id' endsAtUs' old
      rw [inv.alone k j held] at found
      cases found

/-- The end task's window stays the one to close while its closing edge is on its way. -/
theorem Exclusive.close {k : Nat} {startUs : Int} {id : String}
    (inv : Exclusive roles lock experiments) (running : roles k = .running id startUs) :
    Exclusive (Function.update roles k (.closing id startUs)) lock experiments := by
  have same (j : Nat) :
      (Function.update roles k (.closing id startUs) j).unfiled? = (roles j).unfiled? ∧
        (Function.update roles k (.closing id startUs) j).holds = (roles j).holds := by
    rcases eq_or_ne j k with rfl | apart
    · rw [Function.update_self, running]
      exact ⟨rfl, rfl⟩
    · rw [Function.update_of_ne apart]
      exact ⟨rfl, rfl⟩
  refine ⟨?_, ?_, ?_, ?_, ?_, inv.keys⟩
  · intro j
    rw [(same j).2]
    exact inv.locked j
  · intro i j
    rw [(same i).2, (same j).1]
    exact inv.alone i j
  · intro i j
    rw [(same i).1, (same j).1]
    exact inv.one i j
  · intro j id'
    rw [(same j).1]
    exact inv.registered j id'
  · intro id' endsAtUs mem
    obtain ⟨j, found⟩ := inv.owned id' endsAtUs mem
    exact ⟨j, (same j).1.trans found⟩

theorem Exclusive.file {k : Nat} {startUs : Int} {id : String}
    (inv : Exclusive roles lock experiments) (closing : roles k = .closing id startUs)
    (free : lock = none) :
    Exclusive (Function.update roles k (.closed startUs)) lock
      (experiments.insert id .finished) := by
  have mine : (roles k).unfiled? = some id := by rw [closing]; rfl
  have after (j : Nat) : (Function.update roles k (.closed startUs) j).unfiled? = none ∧
      (Function.update roles k (.closed startUs) j).holds = false := by
    rcases eq_or_ne j k with rfl | apart
    · rw [Function.update_self]
      exact ⟨rfl, rfl⟩
    · rw [Function.update_of_ne apart]
      refine ⟨?_, inv.unlocked free j⟩
      by_contra found
      exact apart (inv.one j k found (by rw [mine]; simp))
  refine ⟨?_, ?_, ?_, ?_, ?_, Experiments.keys_insert inv.keys _ _⟩
  · intro j holds
    rw [(after j).2] at holds
    cases holds
  · intro i j _
    exact (after j).1
  · intro i j first
    exact absurd (after i).1 first
  · intro j id' found
    rw [(after j).1] at found
    cases found
  · intro id' endsAtUs mem
    rcases Experiments.mem_insert.mp mem with same | ⟨old, other⟩
    · cases same
    · obtain ⟨j, found⟩ := inv.owned id' endsAtUs old
      have same := inv.one j k (by rw [found]; simp) (by rw [mine]; simp)
      subst same
      rw [mine] at found
      exact absurd (Option.some.inj found).symm other

end

theorem exclusive_step {w w' : Windows} (step : Step w w')
    (inv : Exclusive w.roles w.registryLock w.experiments) :
    Exclusive w'.roles w'.registryLock w'.experiments := by
  cases step with
  | quiet roles lock experiments =>
    rw [roles, experiments]
    exact ⟨fun k holds => lock k holds (inv.locked k holds), inv.alone, inv.one, inv.registered,
      inv.owned, inv.keys⟩
  | @hold k outside free idle =>
    exact inv.update (inv.none_unfiled idle k) rfl (fun j _ => inv.unlocked free j)
      fun _ => ⟨rfl, inv.none_unfiled idle⟩
  | @drop k holding lock =>
    have held : (w.roles k).holds = true := by rw [holding]; rfl
    refine inv.update (inv.alone k k held) rfl (inv.sole held) ?_
    intro holds
    cases holds
  | @opens k tsUs holding later =>
    have held : (w.roles k).holds = true := by rw [holding]; rfl
    exact inv.update (inv.alone k k held) rfl (inv.sole held)
      fun _ => ⟨inv.locked k held, fun j => inv.alone k j held⟩
  | closes running => exact inv.close running
  | spawns opening => exact inv.spawn opening
  | files closing free => exact inv.file closing free

theorem WindowRole.unfiled_of_running {role : WindowRole} {startUs : Int}
    (awaiting : role.awaiting? = some startUs) :
    role = .opening startUs ∨ ∃ id, role = .running id startUs := by
  cases role with
  | opening =>
    cases awaiting
    exact .inl rfl
  | running id =>
    cases awaiting
    exact .inr ⟨id, rfl⟩
  | outside | holding | closing | closed => cases awaiting

/-- Where one thread may open or close a window no other awaits a closing edge. -/
theorem Exclusive.awaiting_none {roles : Nat → WindowRole} {lock : Option Nat}
    {experiments : Experiments} (inv : Exclusive roles lock experiments) {k : Nat}
    (mine : (roles k).holds = true ∨ (roles k).unfiled? ≠ none) {j : Nat} (apart : j ≠ k) :
    (roles j).awaiting? = none := by
  cases awaiting : (roles j).awaiting? with
  | none => rfl
  | some startUs =>
    rcases WindowRole.unfiled_of_running awaiting with opening | ⟨id, running⟩
    · have held : (roles j).holds = true := by rw [opening]; rfl
      rcases mine with holds | unfiled
      · rw [inv.sole holds j apart] at held
        cases held
      · exact absurd (inv.alone j k held) unfiled
    · have found : (roles j).unfiled? = some id := by rw [running]; rfl
      rcases mine with holds | unfiled
      · rw [inv.alone k j holds] at found
        cases found
      · exact absurd (inv.one j k (by rw [found]; simp) unfiled) apart

theorem Bracketed.update {roles : Nat → WindowRole} {brackets : List (Episodes.Event Int Int)}
    {clockUs : Int} {k : Nat} {role : WindowRole} (inv : Bracketed roles brackets clockUs)
    (awaiting : role.awaiting? = (roles k).awaiting?) (ended : role.ended? = (roles k).ended?) :
    Bracketed (Function.update roles k role) brackets clockUs := by
  have same (j : Nat) : (Function.update roles k role j).awaiting? = (roles j).awaiting? ∧
      (Function.update roles k role j).ended? = (roles j).ended? := by
    rcases eq_or_ne j k with rfl | apart
    · rw [Function.update_self]
      exact ⟨awaiting, ended⟩
    · rw [Function.update_of_ne apart]
      exact ⟨rfl, rfl⟩
  refine ⟨?_, inv.stamps, inv.distinct, ?_⟩
  · simp only [(same _).1]
    exact inv.pending
  · intro j startUs
    rw [(same j).2]
    exact inv.ended j startUs

theorem Bracketed.opens {roles : Nat → WindowRole} {brackets : List (Episodes.Event Int Int)}
    {clockUs tsUs : Int} {k : Nat} (inv : Bracketed roles brackets clockUs)
    (holding : roles k = .holding) (others : ∀ j, j ≠ k → (roles j).awaiting? = none)
    (later : clockUs < tsUs) :
    Bracketed (Function.update roles k (.opening tsUs)) (brackets ++ [.opens tsUs tsUs]) tsUs := by
  obtain ⟨pending, alternates, _, settled⟩ := inv.pending
  have settled' : pending = none := by
    refine settled fun j => ?_
    rcases eq_or_ne j k with rfl | apart
    · rw [holding]
      rfl
    · exact others j apart
  subst settled'
  have opened : openedKeys (brackets ++ [.opens tsUs tsUs]) = openedKeys brackets ++ [tsUs] := by
    simp [openedKeys]
  have closed : closedKeys (brackets ++ [.opens tsUs tsUs]) = closedKeys brackets := by
    simp [closedKeys]
  refine ⟨⟨some (tsUs, tsUs), alternates.append (.opens (.done _)), ?_, ?_⟩, ?_, ?_, ?_⟩
  · intro j startUs awaiting
    rcases eq_or_ne j k with rfl | apart
    · rw [Function.update_self] at awaiting
      cases awaiting
      rfl
    · rw [Function.update_of_ne apart, others j apart] at awaiting
      cases awaiting
  · intro idle
    have mine := idle k
    rw [Function.update_self] at mine
    cases mine
  · intro startUs mem
    rw [opened] at mem
    rcases List.mem_append.mp mem with old | new
    · have bound := inv.stamps startUs old
      omega
    · rw [List.mem_singleton.mp new]
  · rw [opened]
    refine List.nodup_append.mpr ⟨inv.distinct, List.nodup_singleton _, ?_⟩
    intro startUs old stamp new same
    have bound := inv.stamps startUs old
    rw [same, List.mem_singleton.mp new] at bound
    omega
  · intro j startUs ended
    rw [closed]
    rcases eq_or_ne j k with rfl | apart
    · rw [Function.update_self] at ended
      cases ended
    · rw [Function.update_of_ne apart] at ended
      exact inv.ended j startUs ended

theorem Bracketed.closes {roles : Nat → WindowRole} {brackets : List (Episodes.Event Int Int)}
    {clockUs tsUs startUs : Int} {id : String} {k : Nat} (inv : Bracketed roles brackets clockUs)
    (running : roles k = .running id startUs) (others : ∀ j, j ≠ k → (roles j).awaiting? = none)
    (later : clockUs < tsUs) :
    Bracketed (Function.update roles k (.closing id startUs))
      (brackets ++ [.closes startUs tsUs]) tsUs := by
  obtain ⟨pending, alternates, awaited, _⟩ := inv.pending
  have mine : pending = some (startUs, startUs) := awaited k startUs (by rw [running]; rfl)
  subst mine
  have opened : openedKeys (brackets ++ [.closes startUs tsUs]) = openedKeys brackets := by
    simp [openedKeys]
  have closed : closedKeys (brackets ++ [.closes startUs tsUs]) =
      closedKeys brackets ++ [startUs] := by
    simp [closedKeys]
  have known : startUs ∈ openedKeys brackets := by
    have keys := alternates.keys
    simp only [Option.toList_none, List.map_nil, List.nil_append] at keys
    rw [keys]
    simp
  have bound := inv.stamps startUs known
  refine ⟨⟨none, alternates.append (.closes (by omega) (.done _)), ?_, ?_⟩, ?_, ?_, ?_⟩
  · intro j startUs' awaiting
    rcases eq_or_ne j k with rfl | apart
    · rw [Function.update_self] at awaiting
      cases awaiting
    · rw [Function.update_of_ne apart, others j apart] at awaiting
      cases awaiting
  · intro _
    rfl
  · intro startUs' mem
    rw [opened] at mem
    have bound' := inv.stamps startUs' mem
    omega
  · rw [opened]
    exact inv.distinct
  · intro j startUs' ended
    rw [closed]
    rcases eq_or_ne j k with rfl | apart
    · rw [Function.update_self] at ended
      cases ended
      exact List.mem_append_right _ (List.mem_singleton_self _)
    · rw [Function.update_of_ne apart] at ended
      exact List.mem_append_left _ (inv.ended j startUs' ended)

theorem Bracketed.spawn {roles : Nat → WindowRole} {brackets : List (Episodes.Event Int Int)}
    {clockUs startUs : Int} {id : String} {k n : Nat} (inv : Bracketed roles brackets clockUs)
    (opening : roles k = .opening startUs) (fresh : roles n = .outside) :
    Bracketed (Function.update (Function.update roles k .outside) n (.running id startUs))
      brackets clockUs := by
  obtain ⟨pending, alternates, awaited, _⟩ := inv.pending
  have mine : pending = some (startUs, startUs) := awaited k startUs (by rw [opening]; rfl)
  refine ⟨⟨pending, alternates, ?_, ?_⟩, inv.stamps, inv.distinct, ?_⟩
  · intro j startUs' awaiting
    rcases eq_or_ne j n with rfl | other
    · rw [Function.update_self] at awaiting
      cases awaiting
      exact mine
    · rw [Function.update_of_ne other] at awaiting
      rcases eq_or_ne j k with rfl | apart
      · rw [Function.update_self] at awaiting
        cases awaiting
      · rw [Function.update_of_ne apart] at awaiting
        exact awaited j startUs' awaiting
  · intro idle
    have own := idle n
    rw [Function.update_self] at own
    cases own
  · intro j startUs' ended
    rcases eq_or_ne j n with rfl | other
    · rw [Function.update_self] at ended
      cases ended
    · rw [Function.update_of_ne other] at ended
      rcases eq_or_ne j k with rfl | apart
      · rw [Function.update_self] at ended
        cases ended
      · rw [Function.update_of_ne apart] at ended
        exact inv.ended j startUs' ended

theorem bracketed_step {w w' : Windows} (step : Step w w')
    (exclusive : Exclusive w.roles w.registryLock w.experiments)
    (inv : Bracketed w.roles w.brackets w.clockUs) :
    Bracketed w'.roles w'.brackets w'.clockUs := by
  cases step with
  | quiet roles lock experiments brackets clock =>
    rw [roles, brackets]
    refine ⟨inv.pending, ?_, inv.distinct, inv.ended⟩
    intro startUs mem
    have bound := inv.stamps startUs mem
    omega
  | hold outside free idle => exact inv.update (by rw [outside]; rfl) (by rw [outside]; rfl)
  | drop holding lock => exact inv.update (by rw [holding]; rfl) (by rw [holding]; rfl)
  | @opens k tsUs holding later =>
    have held : (w.roles k).holds = true := by rw [holding]; rfl
    exact inv.opens holding (fun j apart => exclusive.awaiting_none (.inl held) apart) later
  | @closes k tsUs startUs id running later =>
    have unfiled : (w.roles k).unfiled? ≠ none := by simp [running, WindowRole.unfiled?]
    exact inv.closes running (fun j apart => exclusive.awaiting_none (.inr unfiled) apart) later
  | spawns opening fresh lock => exact inv.spawn opening fresh
  | files closing free => exact inv.update (by rw [closing]; rfl) (by rw [closing]; rfl)

end Windows

end NetObserver
