import Mathlib.Data.List.Sort
import NetObserver.QueryMessages
import NetObserver.Runs

/-! Freezes of the capture ring: the copies beside it, and the pruning of the directory that
holds them both. -/

namespace NetObserver

def ringBasename : String := "ring.pcap"

def ringDir : String := "ring"

def keepFreezes : Nat := 12

def keepExperimentFreezes : Nat := 12

def experimentFreezePrefix : String := "freeze-experiment-"

/-- An entry of the blob directory; `modified` is missing where its metadata cannot be read. -/
structure BlobEntry where
  name : String
  isDir : Bool
  modified : Option Nat
  files : List String
deriving DecidableEq

/-- The blob directory: no two of its entries have one name. -/
structure BlobDir where
  entries : List BlobEntry
  distinct : (entries.map BlobEntry.name).Nodup

/-- What the file system refuses. -/
structure FreezeFaults where
  mkdir : Bool
  copy : String → Bool
  remove : String → Bool

def FreezeFaults.none : FreezeFaults := ⟨false, fun _ => false, fun _ => false⟩

namespace BlobEntry

def isExperiment (e : BlobEntry) : Bool := startsWith e.name experimentFreezePrefix

/-- The directories of one kind, with what they are sorted by. -/
def dated (experiment : Bool) (e : BlobEntry) : Option (Nat × String) :=
  if e.isDir && e.isExperiment == experiment then e.modified.map fun m => (m, e.name) else none

end BlobEntry

def newestFirst (dirs : List (Nat × String)) : List (Nat × String) :=
  dirs.mergeSort fun a b => decide (b.1 ≤ a.1)

/-- What a prune sets out to remove. -/
def doomed (keep keepExperiments : Nat) (entries : List BlobEntry) : List String :=
  ((newestFirst (entries.filterMap (BlobEntry.dated false))).drop keep ++
    (newestFirst (entries.filterMap (BlobEntry.dated true))).drop keepExperiments).map Prod.snd

namespace BlobDir

def filter (d : BlobDir) (p : BlobEntry → Bool) : BlobDir where
  entries := d.entries.filter p
  distinct := d.distinct.sublist (List.filter_sublist.map _)

def pruneFreezesWith (faults : FreezeFaults) (keep keepExperiments : Nat) (d : BlobDir) : BlobDir :=
  d.filter fun e => !(doomed keep keepExperiments d.entries).contains e.name || faults.remove e.name

def pruneFreezes (faults : FreezeFaults) (keep : Nat) (d : BlobDir) : BlobDir :=
  d.pruneFreezesWith faults keep keepExperimentFreezes

/-- The ring's files, as a walk of its directory finds them. -/
def ringFiles (d : BlobDir) : List String :=
  match d.entries.find? fun e => e.name == ringDir && e.isDir with
  | some ring => ring.files.filter fun name => startsWith name ringBasename
  | none => []

/-- Files put into a directory; one that is new there dates it. -/
def receive (files : List String) (nowUs : Nat) (e : BlobEntry) : BlobEntry :=
  if files.all e.files.contains then e
  else { e with modified := some nowUs, files := (e.files ++ files).dedup }

@[simp] theorem receive_name (files : List String) (nowUs : Nat) (e : BlobEntry) :
    (receive files nowUs e).name = e.name := by
  unfold receive
  split <;> rfl

/-- `create_dir_all`, which leaves a directory that is there as it is. -/
def createDir (d : BlobDir) (name : String) (nowUs : Nat) : BlobDir :=
  if fresh : name ∈ d.entries.map BlobEntry.name then d
  else
    { entries := d.entries ++ [⟨name, true, some nowUs, []⟩]
      distinct := by
        rw [List.map_append]
        refine List.nodup_append.mpr ⟨d.distinct, List.nodup_singleton _, ?_⟩
        intro a mem b single same
        rw [List.map_singleton, List.mem_singleton] at single
        rw [same, single] at mem
        exact fresh mem }

def copyInto (d : BlobDir) (name : String) (files : List String) (nowUs : Nat) : BlobDir where
  entries := d.entries.map fun e => if e.name = name then receive files nowUs e else e
  distinct := by
    rw [List.map_map]
    have same : BlobEntry.name ∘ (fun e => if e.name = name then receive files nowUs e else e) =
        BlobEntry.name := by
      funext e
      show (if e.name = name then receive files nowUs e else e).name = e.name
      split
      next => exact receive_name files nowUs e
      next => rfl
    rw [same]
    exact d.distinct

def copyRingFiles (faults : FreezeFaults) (d : BlobDir) (name : String) (nowUs : Nat) :
    List String × BlobDir :=
  if faults.mkdir then ([], d)
  else
    let copied := d.ringFiles.filter fun file => !faults.copy file
    (copied, (d.createDir name nowUs).copyInto name copied nowUs)

/-- `PcapRing::freeze`: copy, then prune the siblings. -/
def freeze (faults : FreezeFaults) (d : BlobDir) (name : String) (nowUs : Nat) :
    List String × BlobDir :=
  let r := d.copyRingFiles faults name nowUs
  (r.1, r.2.pruneFreezes faults keepFreezes)

end BlobDir

theorem newestFirst_perm (dirs : List (Nat × String)) : (newestFirst dirs).Perm dirs :=
  List.mergeSort_perm _ _

theorem newestFirst_sorted (dirs : List (Nat × String)) :
    (newestFirst dirs).Pairwise fun a b => b.1 ≤ a.1 := by
  have sorted : (newestFirst dirs).Pairwise fun a b => decide (b.1 ≤ a.1) = true :=
    List.pairwise_mergeSort
      (by intro a b c; simp only [decide_eq_true_eq]; omega)
      (by intro a b; simp only [Bool.or_eq_true, decide_eq_true_eq]; omega) dirs
  exact sorted.imp fun le => of_decide_eq_true le

/-- Newest first, a directory comes behind as many as are newer, and those of its own instant. -/
theorem mem_take_newest {dirs : List (Nat × String)} {d : Nat × String} (mem : d ∈ dirs)
    (own : ∀ b ∈ dirs, b.1 = d.1 → b = d) (once : dirs.Nodup) (keep : Nat) :
    d ∈ (newestFirst dirs).take keep ↔ dirs.countP (fun b => decide (d.1 < b.1)) < keep := by
  have perm := newestFirst_perm dirs
  obtain ⟨front, back, split⟩ := List.append_of_mem (perm.mem_iff.mpr mem)
  have sorted := newestFirst_sorted dirs
  have distinct : (newestFirst dirs).Nodup := perm.nodup_iff.mpr once
  rw [split] at sorted distinct
  obtain ⟨_, behind, before⟩ := List.pairwise_append.mp sorted
  obtain ⟨_, late, apart⟩ := List.nodup_append.mp distinct
  have inFront : ∀ b ∈ front, d.1 < b.1 := by
    intro b mem
    have le := before b mem d List.mem_cons_self
    rcases Nat.lt_or_eq_of_le le with lt | same
    · exact lt
    · have member : b ∈ dirs := perm.mem_iff.mp (by rw [split]; exact List.mem_append_left _ mem)
      exact absurd (own b member same.symm) (apart b mem d List.mem_cons_self)
  have inBack : ∀ b ∈ d :: back, ¬ d.1 < b.1 := by
    intro b mem
    rcases List.mem_cons.mp mem with rfl | mem
    · exact Nat.lt_irrefl _
    · have le := (List.pairwise_cons.mp behind).1 b mem
      omega
  have counted : dirs.countP (fun b => decide (d.1 < b.1)) = front.length := by
    rw [← perm.countP_eq, split, List.countP_append]
    have all : front.countP (fun b => decide (d.1 < b.1)) = front.length :=
      List.countP_eq_length.mpr fun b mem => decide_eq_true (inFront b mem)
    have none : (d :: back).countP (fun b => decide (d.1 < b.1)) = 0 :=
      List.countP_eq_zero.mpr fun b mem => by simpa using inBack b mem
    rw [all, none]
    rfl
  rw [counted, split]
  constructor
  · intro taken
    by_contra full
    rw [List.take_append_of_le_length (Nat.le_of_not_lt full)] at taken
    exact apart d (List.mem_of_mem_take taken) d List.mem_cons_self rfl
  · intro room
    have place : (front ++ d :: back)[front.length]? = some d := by simp
    exact List.mem_of_getElem? (i := front.length) (by rw [List.getElem?_take_of_lt room]; exact place)

namespace BlobDir

/-- The directories of one kind. -/
def dated (d : BlobDir) (experiment : Bool) : List (Nat × String) :=
  d.entries.filterMap (BlobEntry.dated experiment)

def budget : Bool → Nat
  | false => keepFreezes
  | true => keepExperimentFreezes

theorem dated_eq_some {e : BlobEntry} {experiment : Bool} {m : Nat} {name : String} :
    e.dated experiment = some (m, name) ↔
      e.isDir = true ∧ e.isExperiment = experiment ∧ e.modified = some m ∧ e.name = name := by
  unfold BlobEntry.dated
  by_cases of : (e.isDir && e.isExperiment == experiment) = true
  · rw [if_pos of, Option.map_eq_some_iff]
    simp only [Bool.and_eq_true, beq_iff_eq] at of
    simp [of.1, of.2]
  · rw [if_neg of]
    simp only [Bool.and_eq_true, beq_iff_eq] at of
    constructor
    · intro none
      cases none
    · intro found
      exact absurd ⟨found.1, found.2.1⟩ of

theorem entry_of_name {d : BlobDir} {e f : BlobEntry} (mem : e ∈ d.entries) (mem' : f ∈ d.entries)
    (same : e.name = f.name) : e = f :=
  List.inj_on_of_nodup_map d.distinct mem mem' same

theorem dated_nodup (d : BlobDir) (experiment : Bool) : (d.dated experiment).Nodup := by
  have names : ((d.dated experiment).map Prod.snd).Nodup := by
    refine d.distinct.sublist ?_
    show ((d.entries.filterMap (BlobEntry.dated experiment)).map Prod.snd).Sublist _
    induction d.entries with
    | nil => exact .slnil
    | cons e entries ih =>
      rw [List.map_cons]
      cases found : e.dated experiment with
      | none =>
        rw [List.filterMap_cons_none found]
        exact ih.cons _
      | some dir =>
        rw [List.filterMap_cons_some found, List.map_cons]
        have name : dir.2 = e.name := ((dated_eq_some (m := dir.1)).mp found).2.2.2.symm
        rw [name]
        exact ih.cons_cons _
  exact names.of_map

/-- A directory is removed if it comes behind the budget of its kind. -/
theorem mem_doomed {d : BlobDir} {e : BlobEntry} {experiment : Bool} {m : Nat}
    (mem : e ∈ d.entries) (of : e.dated experiment = some (m, e.name)) :
    e.name ∈ doomed keepFreezes keepExperimentFreezes d.entries ↔
      (m, e.name) ∈ (newestFirst (d.dated experiment)).drop (budget experiment) := by
  have own {kind : Bool} {keep m' : Nat}
      (late : (m', e.name) ∈ (newestFirst (d.dated kind)).drop keep) :
      kind = experiment ∧ m' = m := by
    have listed := (newestFirst_perm _).mem_iff.mp (List.mem_of_mem_drop late)
    obtain ⟨f, mem', found⟩ := List.mem_filterMap.mp listed
    have parts := dated_eq_some.mp found
    cases entry_of_name mem' mem parts.2.2.2
    have known := dated_eq_some.mp of
    exact ⟨parts.2.1.symm.trans known.2.1, Option.some.inj (parts.2.2.1.symm.trans known.2.2.1)⟩
  unfold doomed
  rw [List.map_append, List.mem_append]
  constructor
  · intro late
    rcases late with late | late
    · obtain ⟨dir, late, name⟩ := List.mem_map.mp late
      have shape : dir = (dir.1, e.name) := by rw [← name]
      rw [shape] at late
      obtain ⟨rfl, same⟩ := own late
      rw [same] at late
      exact late
    · obtain ⟨dir, late, name⟩ := List.mem_map.mp late
      have shape : dir = (dir.1, e.name) := by rw [← name]
      rw [shape] at late
      obtain ⟨rfl, same⟩ := own late
      rw [same] at late
      exact late
  · intro late
    cases experiment with
    | false => exact .inl (List.mem_map.mpr ⟨_, late, rfl⟩)
    | true => exact .inr (List.mem_map.mpr ⟨_, late, rfl⟩)

theorem mem_prune {d : BlobDir} {faults : FreezeFaults} {e : BlobEntry} :
    e ∈ (d.pruneFreezes faults keepFreezes).entries ↔
      e ∈ d.entries ∧ (e.name ∉ doomed keepFreezes keepExperimentFreezes d.entries ∨
        faults.remove e.name = true) := by
  show e ∈ d.entries.filter _ ↔ _
  rw [List.mem_filter]
  simp

theorem mem_dated {d : BlobDir} {experiment : Bool} {dir : Nat × String} :
    dir ∈ d.dated experiment ↔
      ∃ e ∈ d.entries, e.name = dir.2 ∧ e.dated experiment = some (dir.1, e.name) := by
  constructor
  · intro mem
    obtain ⟨e, mem, found⟩ := List.mem_filterMap.mp mem
    have name := (dated_eq_some (m := dir.1)).mp found
    exact ⟨e, mem, name.2.2.2, by rw [name.2.2.2]; exact found⟩
  · intro found
    obtain ⟨e, mem, name, found⟩ := found
    exact List.mem_filterMap.mpr ⟨e, mem, by rw [found, name]⟩

/-- Of each kind a prune that meets no fault keeps the newest. -/
theorem mem_dated_prune {d : BlobDir} {experiment : Bool} {dir : Nat × String} :
    dir ∈ (d.pruneFreezes .none keepFreezes).dated experiment ↔
      dir ∈ (newestFirst (d.dated experiment)).take (budget experiment) := by
  have perm := newestFirst_perm (d.dated experiment)
  have distinct : (newestFirst (d.dated experiment)).Nodup := perm.nodup_iff.mpr (d.dated_nodup _)
  rw [← List.take_append_drop (budget experiment) (newestFirst (d.dated experiment))] at distinct
  have apart := (List.nodup_append.mp distinct).2.2
  rw [mem_dated]
  constructor
  · intro kept
    obtain ⟨e, kept, name, found⟩ := kept
    obtain ⟨mem, spared | fault⟩ := mem_prune.mp kept
    · rw [mem_doomed mem found, name] at spared
      have listed := perm.mem_iff.mpr (mem_dated.mpr ⟨e, mem, name, found⟩)
      rw [← List.take_append_drop (budget experiment) (newestFirst _), List.mem_append] at listed
      rcases listed with taken | late
      · exact taken
      · exact absurd late spared
    · cases fault
  · intro taken
    obtain ⟨e, mem, name, found⟩ :=
      mem_dated.mp (perm.mem_iff.mp (List.mem_of_mem_take taken))
    refine ⟨e, mem_prune.mpr ⟨mem, .inl fun gone => ?_⟩, name, found⟩
    rw [mem_doomed mem found, name] at gone
    exact apart dir taken dir gone rfl

/-- The ring's own directory, last dated when its capture created its files. -/
def ringEntry (r : Nat) (files : List String) : BlobEntry := ⟨ringDir, true, some r, files⟩

/-- How many incident freezes are newer than an instant. -/
def newer (d : BlobDir) (r : Nat) : Nat := (d.dated false).countP fun dir => decide (r < dir.1)

structure FreezeCall where
  name : String
  nowUs : Nat

def FreezeCall.isExperiment (f : FreezeCall) : Bool := startsWith f.name experimentFreezePrefix

/-- A freeze that meets no fault, with what it copied. -/
def freezeStep (d : BlobDir) (f : FreezeCall) : BlobDir × List (List String) :=
  let r := d.freeze .none f.name f.nowUs
  (r.2, [r.1])

theorem copyRingFiles_entries {d : BlobDir} {name : String} {nowUs : Nat}
    (fresh : name ∉ d.entries.map BlobEntry.name) :
    (d.copyRingFiles .none name nowUs).1 = d.ringFiles ∧
      ∃ files, (d.copyRingFiles .none name nowUs).2.entries =
        d.entries ++ [⟨name, true, some nowUs, files⟩] := by
  have all : d.ringFiles.filter (fun file => !FreezeFaults.none.copy file) = d.ringFiles :=
    List.filter_eq_self.mpr fun _ _ => rfl
  have copied : d.copyRingFiles .none name nowUs =
      (d.ringFiles, (d.createDir name nowUs).copyInto name d.ringFiles nowUs) := by
    unfold copyRingFiles
    rw [if_neg (show ¬ FreezeFaults.none.mkdir = true from Bool.false_ne_true)]
    show (d.ringFiles.filter (fun file => !FreezeFaults.none.copy file), _) = _
    rw [all]
  rw [copied]
  refine ⟨rfl, ?_⟩
  have created : (d.createDir name nowUs).entries = d.entries ++ [⟨name, true, some nowUs, []⟩] := by
    rw [createDir, dif_neg fresh]
  have old : d.entries.map (fun e => if e.name = name then receive d.ringFiles nowUs e else e) =
      d.entries := by
    refine (List.map_congr_left fun e mem => ?_).trans (List.map_id _)
    exact if_neg fun same => fresh (List.mem_map.mpr ⟨e, mem, same⟩)
  have received : ∃ files, receive d.ringFiles nowUs ⟨name, true, some nowUs, []⟩ =
      ⟨name, true, some nowUs, files⟩ := by
    unfold receive
    split
    next => exact ⟨_, rfl⟩
    next => exact ⟨_, rfl⟩
  obtain ⟨files, received⟩ := received
  refine ⟨files, ?_⟩
  show (d.createDir name nowUs).entries.map _ = _
  rw [created, List.map_append, old, List.map_singleton, if_pos rfl, received]

/-- The ring's directory beside its freezes: no other incident directory has its instant. -/
structure RingThere (d : BlobDir) (r : Nat) (files : List String) : Prop where
  there : ringEntry r files ∈ d.entries
  alone : ∀ e ∈ d.entries, ∀ dir, e.dated false = some dir → dir.1 = r → e.name = ringDir

theorem ringEntry_dated (r : Nat) (files : List String) :
    (ringEntry r files).dated false = some (r, ringDir) := by
  have kind : (ringEntry r files).isExperiment = false := by
    show startsWith ringDir experimentFreezePrefix = false
    decide
  exact dated_eq_some.mpr ⟨rfl, kind, rfl, rfl⟩

theorem RingThere.ringFiles {d : BlobDir} {r : Nat} {files : List String}
    (ring : RingThere d r files) :
    d.ringFiles = files.filter fun name => startsWith name ringBasename := by
  unfold BlobDir.ringFiles
  cases found : d.entries.find? fun e => e.name == ringDir && e.isDir with
  | none =>
    have unfound := List.find?_eq_none.mp found (ringEntry r files) ring.there
    exact absurd (show (ringDir == ringDir && true) = true by decide) unfound
  | some e =>
    have name : e.name = ringDir := by
      have holds := List.find?_some found
      simp only [Bool.and_eq_true, beq_iff_eq] at holds
      exact holds.1
    cases entry_of_name (List.mem_of_find?_eq_some found) ring.there name
    rfl

/-- A prune spares the ring's directory while fewer freezes than it keeps are newer. -/
theorem RingThere.prune {d : BlobDir} {r : Nat} {files : List String} (ring : RingThere d r files) :
    (ringEntry r files ∈ (d.pruneFreezes .none keepFreezes).entries ↔ d.newer r < keepFreezes) ∧
    (ringEntry r files ∈ (d.pruneFreezes .none keepFreezes).entries →
      RingThere (d.pruneFreezes .none keepFreezes) r files ∧
      (d.pruneFreezes .none keepFreezes).newer r = d.newer r) := by
  have dated := ringEntry_dated r files
  have listed : (r, ringDir) ∈ d.dated false := mem_dated.mpr ⟨_, ring.there, rfl, dated⟩
  have own : ∀ dir ∈ d.dated false, dir.1 = r → dir = (r, ringDir) := by
    intro dir mem same
    obtain ⟨e, mem, name, found⟩ := mem_dated.mp mem
    have ringName := ring.alone e mem _ found same
    exact Prod.ext same (name.symm.trans ringName)
  have taken := mem_take_newest listed own (d.dated_nodup false) keepFreezes
  have kept : ringEntry r files ∈ (d.pruneFreezes .none keepFreezes).entries ↔
      (r, ringDir) ∈ (d.pruneFreezes .none keepFreezes).dated false := by
    constructor
    · intro there
      exact mem_dated.mpr ⟨_, there, rfl, dated⟩
    · intro listed
      obtain ⟨e, mem, name, _⟩ := mem_dated.mp listed
      cases entry_of_name (mem_prune.mp mem).1 ring.there name
      exact mem
  refine ⟨kept.trans (mem_dated_prune.trans taken), fun there => ⟨⟨there, ?_⟩, ?_⟩⟩
  · intro e mem
    exact ring.alone e (mem_prune.mp mem).1
  · have inside := mem_dated_prune.mp (kept.mp there)
    have sorted := newestFirst_sorted (d.dated false)
    rw [← List.take_append_drop (budget false) (newestFirst _)] at sorted
    have before := (List.pairwise_append.mp sorted).2.2 _ inside
    unfold newer
    rw [List.countP_eq_length_filter, List.countP_eq_length_filter]
    refine List.Perm.length_eq ((List.perm_ext_iff_of_nodup
      (((d.pruneFreezes .none keepFreezes).dated_nodup false).filter _)
      ((d.dated_nodup false).filter _)).mpr fun dir => ?_)
    rw [List.mem_filter, List.mem_filter, mem_dated_prune]
    constructor
    · intro both
      exact ⟨(newestFirst_perm _).mem_iff.mp (List.mem_of_mem_take both.1), both.2⟩
    · intro both
      refine ⟨?_, both.2⟩
      have among := (newestFirst_perm _).mem_iff.mpr both.1
      rw [← List.take_append_drop (budget false) (newestFirst _)] at among
      rcases List.mem_append.mp among with early | late
      · exact early
      · have older := before dir late
        have newer := of_decide_eq_true both.2
        exact absurd newer (Nat.not_lt_of_le older)

/-- What a freeze adds to the directory: one more of its kind, newer than the ring. -/
theorem RingThere.copy {d : BlobDir} {r : Nat} {files : List String} (ring : RingThere d r files)
    {f : FreezeCall} (fresh : f.name ∉ d.entries.map BlobEntry.name) (later : r < f.nowUs) :
    RingThere (d.copyRingFiles .none f.name f.nowUs).2 r files ∧
      (d.copyRingFiles .none f.name f.nowUs).2.newer r = d.newer r + (!f.isExperiment).toNat := by
  obtain ⟨_, copied, entries⟩ := @copyRingFiles_entries _ _ f.nowUs fresh
  generalize (d.copyRingFiles .none f.name f.nowUs).2 = c at entries ⊢
  have added : BlobEntry.dated false ⟨f.name, true, some f.nowUs, copied⟩ =
      if f.isExperiment then none else some (f.nowUs, f.name) := by
    unfold BlobEntry.dated
    have kind : BlobEntry.isExperiment ⟨f.name, true, some f.nowUs, copied⟩ = f.isExperiment := rfl
    rw [kind]
    cases f.isExperiment <;> rfl
  refine ⟨⟨?_, ?_⟩, ?_⟩
  · rw [entries]
    exact List.mem_append_left _ ring.there
  · rw [entries]
    intro e mem dir found same
    rcases List.mem_append.mp mem with old | new
    · exact ring.alone e old dir found same
    · cases List.mem_singleton.mp new
      rw [added] at found
      split at found
      next => cases found
      next =>
        cases found
        exact absurd same (Nat.ne_of_gt later)
  · unfold newer BlobDir.dated
    rw [entries, List.filterMap_append, List.countP_append]
    have one : [(⟨f.name, true, some f.nowUs, copied⟩ : BlobEntry)].filterMap
        (BlobEntry.dated false) = if f.isExperiment then [] else [(f.nowUs, f.name)] := by
      cases experiment : f.isExperiment with
      | true =>
        rw [experiment] at added
        exact List.filterMap_cons_none added
      | false =>
        rw [experiment] at added
        exact List.filterMap_cons_some added
    rw [one]
    cases f.isExperiment with
    | true => rfl
    | false =>
      have counted : List.countP (fun dir => decide (r < dir.1)) [(f.nowUs, f.name)] = 1 :=
        List.countP_eq_length.mpr fun dir mem => by
          cases List.mem_singleton.mp mem
          exact decide_eq_true later
      exact congrArg _ counted

/-- One freeze beside the ring's directory. -/
theorem RingThere.freeze {d : BlobDir} {r : Nat} {files : List String} (ring : RingThere d r files)
    {f : FreezeCall} (fresh : f.name ∉ d.entries.map BlobEntry.name) (later : r < f.nowUs) :
    (ringEntry r files ∈ (d.freezeStep f).1.entries ↔
      d.newer r + (!f.isExperiment).toNat < keepFreezes) ∧
    (ringEntry r files ∈ (d.freezeStep f).1.entries → RingThere (d.freezeStep f).1 r files ∧
      (d.freezeStep f).1.newer r = d.newer r + (!f.isExperiment).toNat) := by
  obtain ⟨copied, counted⟩ := ring.copy fresh later
  rw [← counted]
  exact copied.prune

theorem freezeStep_copied {d : BlobDir} {f : FreezeCall}
    (fresh : f.name ∉ d.entries.map BlobEntry.name) : (d.freezeStep f).2 = [d.ringFiles] :=
  congrArg (fun files => [files]) (@copyRingFiles_entries _ _ f.nowUs fresh).1

theorem freezeStep_entries {d : BlobDir} {f : FreezeCall} {e : BlobEntry}
    (fresh : f.name ∉ d.entries.map BlobEntry.name) (mem : e ∈ (d.freezeStep f).1.entries) :
    e ∈ d.entries ∨ e.name = f.name := by
  obtain ⟨_, copied, entries⟩ := @copyRingFiles_entries _ _ f.nowUs fresh
  have before : e ∈ (d.copyRingFiles .none f.name f.nowUs).2.entries := (mem_prune.mp mem).1
  rw [entries] at before
  rcases List.mem_append.mp before with old | new
  · exact .inl old
  · cases List.mem_singleton.mp new
    exact .inr rfl

theorem freezeStep_names {d : BlobDir} {f : FreezeCall} {name : String}
    (fresh : f.name ∉ d.entries.map BlobEntry.name)
    (mem : name ∈ (d.freezeStep f).1.entries.map BlobEntry.name) :
    name ∈ d.entries.map BlobEntry.name ∨ name = f.name := by
  obtain ⟨e, listed, rfl⟩ := List.mem_map.mp mem
  exact (freezeStep_entries fresh listed).imp_left fun old => List.mem_map.mpr ⟨e, old, rfl⟩

/-- The freezes to come have names of their own. -/
def Fresh (d : BlobDir) (fs : List FreezeCall) : Prop :=
  (fs.map FreezeCall.name).Nodup ∧ ∀ f ∈ fs, f.name ∉ d.entries.map BlobEntry.name

theorem Fresh.step {d : BlobDir} {f : FreezeCall} {fs : List FreezeCall}
    (fresh : d.Fresh (f :: fs)) : (d.freezeStep f).1.Fresh fs := by
  obtain ⟨distinct, unused⟩ := fresh
  rw [List.map_cons, List.nodup_cons] at distinct
  refine ⟨distinct.2, fun g mem used => ?_⟩
  rcases freezeStep_names (unused f List.mem_cons_self) used with old | same
  · exact unused g (List.mem_cons_of_mem _ mem) old
  · exact distinct.1 (List.mem_map.mpr ⟨g, mem, same⟩)

/-- Without the ring's directory there is nothing to copy, and no freeze makes it again. -/
theorem gone_run {d : BlobDir} {fs : List FreezeCall}
    (gone : ringDir ∉ d.entries.map BlobEntry.name) (fresh : d.Fresh fs)
    (others : ∀ f ∈ fs, f.name ≠ ringDir) :
    ringDir ∉ (Runs.emit freezeStep d fs).1.entries.map BlobEntry.name ∧
      ∀ k, k < fs.length → (Runs.emit freezeStep d fs).2[k]? = some [] := by
  induction fs generalizing d with
  | nil => exact ⟨gone, fun k bound => absurd bound (Nat.not_lt_zero k)⟩
  | cons f fs ih =>
    have unused := fresh.2 f List.mem_cons_self
    have still : ringDir ∉ (d.freezeStep f).1.entries.map BlobEntry.name := by
      intro mem
      rcases freezeStep_names unused mem with old | same
      · exact gone old
      · exact others f List.mem_cons_self same.symm
    obtain ⟨ends, copies⟩ := ih still fresh.step fun g mem => others g (List.mem_cons_of_mem _ mem)
    have none : d.ringFiles = [] := by
      unfold ringFiles
      split
      next e found =>
        have holds := List.find?_some found
        simp only [Bool.and_eq_true, beq_iff_eq] at holds
        exact absurd (List.mem_map.mpr ⟨e, List.mem_of_find?_eq_some found, holds.1⟩) gone
      next => rfl
    rw [Runs.emit_cons]
    refine ⟨ends, fun k bound => ?_⟩
    rw [freezeStep_copied unused, none]
    cases k with
    | zero => rfl
    | succ k => exact copies k (Nat.lt_of_succ_lt_succ bound)

/-- The freezes of incidents among these. -/
def incidents (fs : List FreezeCall) : Nat := fs.countP fun f => !f.isExperiment

theorem incidents_cons (f : FreezeCall) (fs : List FreezeCall) :
    incidents (f :: fs) = (!f.isExperiment).toNat + incidents fs := by
  unfold incidents
  rw [List.countP_cons, Nat.add_comm]
  cases f.isExperiment <;> rfl

/-- A capture's own directory counts as one of the freezes beside it: it lasts, and there is
something to copy, until as many newer incidents have been frozen as the pruner keeps. The
freezes of experiments do not count. -/
theorem ring_outlasts_iff {d : BlobDir} {r : Nat} {files : List String} {fs : List FreezeCall}
    (ring : RingThere d r files) (fresh : d.Fresh fs) (later : ∀ f ∈ fs, r < f.nowUs) :
    (ringEntry r files ∈ (Runs.emit freezeStep d fs).1.entries ↔
      fs = [] ∨ d.newer r + incidents fs < keepFreezes) ∧
    ∀ k, k < fs.length → (Runs.emit freezeStep d fs).2[k]? = some
      (if k = 0 ∨ d.newer r + incidents (fs.take k) < keepFreezes then
        files.filter fun name => startsWith name ringBasename
      else []) := by
  induction fs generalizing d with
  | nil => exact ⟨⟨fun _ => .inl rfl, fun _ => ring.there⟩, fun k bound => (by cases bound)⟩
  | cons f fs ih =>
    have unused := fresh.2 f List.mem_cons_self
    have copied := freezeStep_copied unused
    obtain ⟨spared, kept⟩ := ring.freeze unused (later f List.mem_cons_self)
    have laterFs : ∀ g ∈ fs, r < g.nowUs := fun g mem => later g (List.mem_cons_of_mem _ mem)
    rw [Runs.emit_cons, copied, ring.ringFiles]
    by_cases room : d.newer r + (!f.isExperiment).toNat < keepFreezes
    · obtain ⟨next, counted⟩ := kept (spared.mpr room)
      obtain ⟨ends, copies⟩ := ih next fresh.step laterFs
      refine ⟨ends.trans ?_, fun k bound => ?_⟩
      · rw [counted, incidents_cons, Nat.add_assoc]
        constructor
        · intro left
          rcases left with rfl | few
          · exact .inr room
          · exact .inr few
        · intro left
          rcases left with none | few
          · cases none
          · exact .inr few
      · cases k with
        | zero => rfl
        | succ k =>
          show (Runs.emit freezeStep (d.freezeStep f).1 fs).2[k]? = _
          rw [copies k (Nat.lt_of_succ_lt_succ bound), counted, List.take_succ_cons, incidents_cons,
            Nat.add_assoc]
          congr 1
          by_cases first : k = 0
          · subst first
            rw [if_pos (.inl rfl), if_pos (.inr room)]
          · simp only [first, false_or, Nat.succ_ne_zero]
    · have named : ringDir ∈ d.entries.map BlobEntry.name :=
        List.mem_map.mpr ⟨_, ring.there, rfl⟩
      have others : ∀ g ∈ f :: fs, g.name ≠ ringDir :=
        fun g mem same => fresh.2 g mem (same ▸ named)
      have gone : ringDir ∉ (d.freezeStep f).1.entries.map BlobEntry.name := by
        intro mem
        obtain ⟨e, listed, name⟩ := List.mem_map.mp mem
        rcases freezeStep_entries unused listed with old | same
        · cases entry_of_name old ring.there name
          exact room (spared.mp listed)
        · exact others f List.mem_cons_self (same.symm.trans name)
      obtain ⟨ends, copies⟩ :=
        gone_run gone fresh.step fun g mem => others g (List.mem_cons_of_mem _ mem)
      refine ⟨⟨fun there => ?_, fun left => ?_⟩, fun k bound => ?_⟩
      · exact absurd (List.mem_map.mpr ⟨_, there, rfl⟩) ends
      · rw [incidents_cons] at left
        rcases left with none | few
        · cases none
        · exact absurd (show _ < _ by omega) room
      · cases k with
        | zero => rfl
        | succ k =>
          show (Runs.emit freezeStep (d.freezeStep f).1 fs).2[k]? = _
          rw [copies k (Nat.lt_of_succ_lt_succ bound), List.take_succ_cons, incidents_cons, if_neg]
          intro left
          rcases left with none | few
          · cases none
          · exact absurd (show _ < _ by omega) room

def ringAlone : BlobDir := ⟨[ringEntry 5 ["ring.pcap0", "ring.pcap1"]], List.nodup_singleton _⟩

def twelveFreezes : List FreezeCall :=
  (List.range 12).map fun i => ⟨"freeze-gw-change-" ++ i.repr, 6 + i⟩

theorem ring_outlasts_iff_twelve :
    ringEntry 5 ["ring.pcap0", "ring.pcap1"] ∉
      (Runs.emit freezeStep ringAlone twelveFreezes).1.entries := by
  have alone : RingThere ringAlone 5 ["ring.pcap0", "ring.pcap1"] :=
    ⟨List.mem_singleton_self _, fun e mem _ _ _ => by rw [List.mem_singleton.mp mem]; rfl⟩
  rw [(ring_outlasts_iff alone ⟨by decide, by decide⟩ (by decide)).1]
  decide

end BlobDir

end NetObserver
