import NetObserver.FileTree
import NetObserver.RingFreezes

/-! Who may read the record: the access pass of a start, and what the daemon, the database and
`tcpdump` make afterwards. -/

namespace NetObserver

open FileTree

/-- What the configuration says of the record's places and of its readers. -/
structure RecordAccess where
  dbPath : Path
  blobDir : Path
  recordGid : Option Nat
  recordMode : BitVec 32

/-- How the calls of one pass come out: what a probe or a walk does not see, what is refused. -/
structure PassCalls where
  hides : Path → Bool
  stat : Path → Bool
  chown : Path → Bool
  clears : Path → Bool
  chmod : Path → Bool
  list : Path → Bool
  mkdir : Path → Bool
  copy : Path → Bool

def PassCalls.fine : PassCalls where
  hides _ := false
  stat _ := false
  chown _ := false
  clears _ := false
  chmod _ := false
  list _ := false
  mkdir _ := false
  copy _ := false

def daemonUmask : Perm := 0o027

def withSetgid (stMode : BitVec 32) : BitVec 32 := stMode &&& 0o7777 ||| 0o2000

def walPath : Path → Path
  | [] => [".wal"]
  | name :: dir => (name ++ ".wal") :: dir

def isRingFile (name : String) : Bool := startsWith name ringBasename

/-- One step of a pass after another, whether the first landed or not. -/
def also (r : Bool × Tree) (next : Tree → Bool × Tree) : Bool × Tree :=
  (r.1 && (next r.2).1, (next r.2).2)

section Grants

variable (a : PassCalls) (gid : Option Nat) (mode : BitVec 32)

def tryChown (t : Tree) (p : Path) : Bool × Tree :=
  match if a.chown p then none else t.chown gid (a.clears p) p with
  | some t' => (true, t')
  | none => (false, t)

def tryChmod (mode : BitVec 32) (t : Tree) (p : Path) : Bool × Tree :=
  match if a.chmod p then none else t.chmod mode p with
  | some t' => (true, t')
  | none => (false, t)

/-- The group, then the mode. -/
def grant (mode : BitVec 32) (t : Tree) (p : Path) : Bool × Tree :=
  also (tryChown a gid t p) fun t => tryChmod a mode t p

/-- The directory's mode is read before its group is changed. -/
def grantDirAccess (t : Tree) (dir : Path) : Bool × Tree :=
  match if a.stat dir then none else t.node dir with
  | none => (false, t)
  | some found => grant a gid (withSetgid found.stMode) t dir

def grantFileAccess (t : Tree) (path : Path) : Bool × Tree := grant a gid mode t path

def grantEach (ringDir : Path) : List String → Tree → Bool × Tree
  | [], t => (true, t)
  | name :: names, t =>
    if isRingFile name && !a.hides (name :: ringDir) && t.isFile (name :: ringDir) then
      also (grantFileAccess a gid mode t (name :: ringDir)) (grantEach ringDir names)
    else grantEach ringDir names t

def grantRingFilesAccess (t : Tree) (ringDir : Path) : Bool × Tree :=
  if a.list ringDir then (false, t)
  else grantEach a gid mode ringDir (t.children ringDir) t

end Grants

namespace RecordAccess

variable (cfg : RecordAccess)

def dbDir : Path := cfg.dbPath.tail

def ringPath : Path := ringDir :: cfg.blobDir

def grantDbDir (a : PassCalls) (t : Tree) : Bool × Tree :=
  if cfg.dbDir = [] then (true, t) else grantDirAccess a cfg.recordGid t cfg.dbDir

def grantWal (a : PassCalls) (t : Tree) : Bool × Tree :=
  if !a.hides (walPath cfg.dbPath) && (t.node (walPath cfg.dbPath)).isSome then
    grantFileAccess a cfg.recordGid cfg.recordMode t (walPath cfg.dbPath)
  else (true, t)

/-- Whether every step landed, and what the steps left. -/
def restrictRecordAccess (a : PassCalls) (t : Tree) : Bool × Tree :=
  also (also (cfg.grantDbDir a t) fun t =>
      grantFileAccess a cfg.recordGid cfg.recordMode t cfg.dbPath)
    (cfg.grantWal a)

def grantRing (a : PassCalls) (t : Tree) : Bool × Tree :=
  if !a.hides cfg.ringPath && t.isDir cfg.ringPath then
    also (grantDirAccess a cfg.recordGid t cfg.ringPath) fun t =>
      grantRingFilesAccess a cfg.recordGid cfg.recordMode t cfg.ringPath
  else (true, t)

def restrictBlobAccess (a : PassCalls) (t : Tree) : Bool × Tree :=
  also (grantDirAccess a cfg.recordGid t cfg.blobDir) (cfg.grantRing a)

/-- The pass of a start, the record's half before the blob tree's. -/
def restrictAccess (record blob : PassCalls) (t : Tree) : Bool × Tree :=
  also (cfg.restrictRecordAccess record t) (cfg.restrictBlobAccess blob)

/-- What the store's opening has seen to before the pass. -/
def opened (t : Tree) : Bool :=
  t.isFile cfg.dbPath && !t.isDir (walPath cfg.dbPath) && t.isDir cfg.blobDir

def creation (ownGid : Nat) (dirGroup : Bool) : Creation := ⟨daemonUmask, ownGid, dirGroup⟩

def copyEach (c : Creation) (a : PassCalls) (destDir : Path) : List String → Tree → Tree
  | [], t => t
  | name :: names, t =>
    if isRingFile name && !a.hides (name :: cfg.ringPath) then
      match if a.copy (name :: destDir) then none
        else t.copyFile c (name :: cfg.ringPath) name destDir with
      | some t' =>
        copyEach c a destDir names
          (grantFileAccess a cfg.recordGid cfg.recordMode t' (name :: destDir)).2
      | none => copyEach c a destDir names t
    else copyEach c a destDir names t

def copyRingFiles (c : Creation) (a : PassCalls) (t : Tree) (destDir : Path) : Tree :=
  let made := t.createDirAll c a.mkdir destDir
  if made.1 then
    let owned := (tryChown a cfg.recordGid made.2 destDir).2
    if a.list cfg.ringPath then owned
    else cfg.copyEach c a destDir (owned.children cfg.ringPath) owned
  else made.2

end RecordAccess

/-- The disk under the record, and the freezes this record's daemons have made. -/
structure RecordDisk where
  tree : Tree
  frozen : List String

/-- What happens to the disk after a pass; a freeze's directory is named for its instant. -/
inductive RecordStep
  | walBorn
  | walGone
  | ringStarted (a : PassCalls)
  | ringOpened (name : String)
  | froze (a : PassCalls) (name : String)
  | pruned (name : String)
  | restarted (record blob : PassCalls)

namespace RecordAccess

def step (c : Creation) (cfg : RecordAccess) (d : RecordDisk) : RecordStep → Option RecordDisk
  | .walBorn =>
    match walPath cfg.dbPath with
    | [] => none
    | name :: dir => (d.tree.add name dir (c.fileIn (0o666 &&& ~~~c.umask))).map fun t =>
      { d with tree := t }
  | .walGone => (d.tree.removeFile (walPath cfg.dbPath)).map fun t => { d with tree := t }
  | .ringStarted a => some { d with tree := (d.tree.createDirAll c a.mkdir cfg.ringPath).2 }
  | .ringOpened name =>
    if isRingFile name then
      (d.tree.add name cfg.ringPath (c.fileIn (0o666 &&& ~~~c.umask))).map fun t =>
        { d with tree := t }
    else none
  | .froze a name =>
    if d.tree.node (name :: cfg.blobDir) = none ∨ name ∈ d.frozen then
      some ⟨cfg.copyRingFiles c a d.tree (name :: cfg.blobDir), name :: d.frozen⟩
    else none
  | .pruned name =>
    if d.tree.isDir (name :: cfg.blobDir) then
      some { d with tree := d.tree.removeDirAll (name :: cfg.blobDir) }
    else none
  | .restarted record blob =>
    if cfg.opened d.tree then some { d with tree := (cfg.restrictAccess record blob d.tree).2 }
    else none

end RecordAccess

namespace RecordAccess

/-- In the record's group, where one is named, and under no bit beyond the record's mode and what
the daemon's mask leaves a new file. -/
structure Narrow (cfg : RecordAccess) (n : Node) : Prop where
  group : ∀ g, cfg.recordGid = some g → n.gid = g
  perm : Within n.perm (cfg.recordMode.setWidth 12 ||| 0o640)

/-- A directory in which what is made is born in the record's group. -/
structure Passes (cfg : RecordAccess) (c : Creation) (d : Node) : Prop where
  group : ∀ g, cfg.recordGid = some g → d.gid = g
  inherits : c.inherits d = true

/-- The record, its log, the ring's files and the copies frozen from them. -/
def Keeps (cfg : RecordAccess) (frozen : List String) (p : Path) : Prop :=
  p = cfg.dbPath ∨ p = walPath cfg.dbPath ∨ ∃ name, isRingFile name = true ∧
    (p = name :: cfg.ringPath ∨ ∃ dir ∈ frozen, p = name :: dir :: cfg.blobDir)

/-- The directories these are in. -/
def Homes (cfg : RecordAccess) (frozen : List String) (p : Path) : Prop :=
  p = cfg.dbDir ∨ p = cfg.blobDir ∨ p = cfg.ringPath ∨ ∃ dir ∈ frozen, p = dir :: cfg.blobDir

structure Guarded (cfg : RecordAccess) (c : Creation) (frozen : List String) (p : Path)
    (n : Node) : Prop where
  dir : n.isDir = true → cfg.Homes frozen p → cfg.Passes c n
  file : n.isDir = false → cfg.Keeps frozen p → cfg.Narrow n

section Nodes

variable {cfg : RecordAccess} {c : Creation} {frozen : List String} {p : Path} {n : Node}

theorem withSetgid_stMode (n : Node) : (withSetgid n.stMode).setWidth 12 = n.perm ||| setgid := by
  have low : ∀ i, i < 12 → (0o7777 : BitVec 32).getLsbD i = true ∧
      (0o040000 : BitVec 32).getLsbD i = false ∧ (0o100000 : BitVec 32).getLsbD i = false ∧
      (0o2000 : BitVec 32).getLsbD i = setgid.getLsbD i := by decide
  refine BitVec.eq_of_getLsbD_eq fun i small => ?_
  obtain ⟨all, dir, file, set⟩ := low i small
  have kind : (if n.isDir then 0o040000 else 0o100000 : BitVec 32).getLsbD i = false := by
    split
    · exact dir
    · exact file
  simp only [withSetgid, Node.stMode, BitVec.getLsbD_setWidth, BitVec.getLsbD_or,
    BitVec.getLsbD_and, small, all, set, kind, Bool.and_true, Bool.false_or, decide_true,
    Bool.true_and, Nat.lt_trans small (show 12 < 32 by decide)]

theorem chown_group {gid : Option Nat} {clears : Bool} :
    ∀ g, gid = some g → (n.chown gid clears).gid = g := by
  intro g named
  rw [named]
  rfl

theorem Guarded.chown (kept : cfg.Guarded c frozen p n) (clears : Bool) :
    cfg.Guarded c frozen p (n.chown cfg.recordGid clears) where
  dir isDir home := by
    refine ⟨chown_group, ?_⟩
    have passes := (kept.dir isDir home).inherits
    unfold Creation.inherits at passes ⊢
    rw [Node.chown_perm_of_isDir _ _ (show n.isDir = true from isDir)]
    exact passes
  file isFile held :=
    ⟨chown_group, (Node.chown_perm_within _ _ n).trans (kept.file isFile held).perm⟩

theorem passes_chmod {m : Node} (group : ∀ g, cfg.recordGid = some g → n.gid = g) :
    cfg.Passes c (n.chmod (withSetgid m.stMode)) where
  group := group
  inherits := by
    refine Creation.inherits_of_within ?_
    show Within setgid ((withSetgid m.stMode).setWidth 12)
    rw [withSetgid_stMode]
    exact within_or_right _ _

theorem narrow_chmod (group : ∀ g, cfg.recordGid = some g → n.gid = g) :
    cfg.Narrow (n.chmod cfg.recordMode) where
  group := group
  perm := within_or_left _ _

end Nodes

theorem also_landed {r : Bool × Tree} {next : Tree → Bool × Tree} :
    (also r next).1 = true ↔ r.1 = true ∧ (next r.2).1 = true :=
  Iff.of_eq (Bool.and_eq_true _ _)

section Calls

variable {P : Path → Node → Prop} {a : PassCalls} {gid : Option Nat} {mode : BitVec 32} {t : Tree}
  {p q : Path}

theorem tryChown_sameKinds {g : Option Nat} : t.SameKinds (tryChown a g t p).2 := by
  unfold tryChown
  split
  next owned =>
    split at owned
    · cases owned
    · exact Tree.update_sameKinds owned
  next => exact .refl t

theorem tryChmod_sameKinds : t.SameKinds (tryChmod a mode t p).2 := by
  unfold tryChmod
  split
  next moded =>
    split at moded
    · cases moded
    · exact Tree.update_sameKinds moded
  next => exact .refl t

/-- A call that is refused leaves the tree; one that lands changes what stands at its path. -/
theorem tryChown_node (a : PassCalls) (gid : Option Nat) (t : Tree) (p : Path) :
    (∀ q, (tryChown a gid t p).2.node q = t.node q) ∧
      (tryChown a gid t p).1 = false ∨
    ∃ n, t.node p = some n ∧
      (tryChown a gid t p).2.node p = some (n.chown gid (a.clears p)) ∧
      ∀ q, q ≠ p → (tryChown a gid t p).2.node q = t.node q := by
  unfold tryChown
  split
  next owned =>
    split at owned
    · cases owned
    · exact .inr (Tree.update_eq_some owned)
  next => exact .inl ⟨fun _ => rfl, rfl⟩

theorem tryChmod_node (a : PassCalls) (mode : BitVec 32) (t : Tree) (p : Path) :
    (∀ q, (tryChmod a mode t p).2.node q = t.node q) ∧
      (tryChmod a mode t p).1 = false ∨
    ∃ n, t.node p = some n ∧ (tryChmod a mode t p).2.node p = some (n.chmod mode) ∧
      ∀ q, q ≠ p → (tryChmod a mode t p).2.node q = t.node q := by
  unfold tryChmod
  split
  next moded =>
    split at moded
    · cases moded
    · exact .inr (Tree.update_eq_some moded)
  next => exact .inl ⟨fun _ => rfl, rfl⟩

theorem grant_sameKinds : t.SameKinds (grant a gid mode t p).2 :=
  tryChown_sameKinds.trans tryChmod_sameKinds

theorem tryChown_all (all : t.All P)
    (owned : ∀ n, t.node p = some n → P p n → P p (n.chown gid (a.clears p))) :
    (tryChown a gid t p).2.All P := by
  rcases tryChown_node a gid t p with ⟨same, -⟩ | ⟨n, old, new, frame⟩
  · exact fun q n here => all q n ((same q).symm.trans here)
  · refine all.of_frame frame fun m here => ?_
    cases new.symm.trans here
    exact owned n old (all p n old)

theorem tryChmod_all (all : t.All P)
    (moded : ∀ n, t.node p = some n → P p n → P p (n.chmod mode)) :
    (tryChmod a mode t p).2.All P := by
  rcases tryChmod_node a mode t p with ⟨same, -⟩ | ⟨n, old, new, frame⟩
  · exact fun q n here => all q n ((same q).symm.trans here)
  · refine all.of_frame frame fun m here => ?_
    cases new.symm.trans here
    exact moded n old (all p n old)

/-- The change of group leaves what the change of mode meets of the kind it was. -/
theorem grant_all (all : t.All P)
    (owned : ∀ n, t.node p = some n → P p n → P p (n.chown gid (a.clears p)))
    (moded : ∀ m n, t.node p = some m → m.isDir = n.isDir → P p n → P p (n.chmod mode)) :
    (grant a gid mode t p).2.All P := by
  refine tryChmod_all (tryChown_all all owned) fun n here held => ?_
  have kind := tryChown_sameKinds (a := a) (g := gid) (t := t) (p := p) p
  rw [here, Option.map_some] at kind
  obtain ⟨m, old, same⟩ := Option.map_eq_some_iff.mp kind.symm
  exact moded m n old same held

/-- A grant that lands leaves its path with group and mode, and every other as it is. -/
theorem grant_landed (landed : (grant a gid mode t p).1 = true) :
    ∃ n, t.node p = some n ∧
      (grant a gid mode t p).2.node p = some ((n.chown gid (a.clears p)).chmod mode) ∧
      ∀ q, q ≠ p → (grant a gid mode t p).2.node q = t.node q := by
  have both := also_landed.mp landed
  rcases tryChown_node a gid t p with ⟨-, no⟩ | ⟨n, old, new, frame⟩
  · rw [no] at both
    cases both.1
  · rcases tryChmod_node a mode (tryChown a gid t p).2 p with
      ⟨-, no⟩ | ⟨m, held, moded, others⟩
    · rw [no] at both
      cases both.2
    · rw [new] at held
      cases held
      exact ⟨n, old, moded, fun q apart => (others q apart).trans (frame q apart)⟩

end Calls

/-- Guarded everywhere but where a pass has yet to come. -/
def Pending (cfg : RecordAccess) (c : Creation) (frozen : List String) (left : Path → Prop)
    (p : Path) (n : Node) : Prop :=
  left p ∨ cfg.Guarded c frozen p n

section Pass

variable {cfg : RecordAccess} {c : Creation} {frozen : List String} {left : Path → Prop}
  {a : PassCalls} {t : Tree} {p : Path}

theorem grantFile_pending (all : t.All (cfg.Pending c frozen left))
    (file : ∀ n, t.node p = some n → n.isDir = false) :
    (grantFileAccess a cfg.recordGid cfg.recordMode t p).2.All (cfg.Pending c frozen left) := by
  refine grant_all all (fun n _ held => held.imp_right fun guarded => guarded.chown _) ?_
  intro m n old kind held
  refine held.imp_right fun guarded => ⟨fun isDir => ?_, fun isFile keeps => ?_⟩
  · have isFile := file m old
    rw [kind] at isFile
    cases isFile.symm.trans isDir
  · exact narrow_chmod (guarded.file isFile keeps).group

theorem grantFile_lands (all : t.All (cfg.Pending c frozen left))
    (file : ∀ n, t.node p = some n → n.isDir = false)
    (landed : (grantFileAccess a cfg.recordGid cfg.recordMode t p).1 = true) :
    (grantFileAccess a cfg.recordGid cfg.recordMode t p).2.All
      (cfg.Pending c frozen fun q => left q ∧ q ≠ p) := by
  obtain ⟨n, old, new, frame⟩ := grant_landed landed
  intro q m here
  by_cases same : q = p
  · subst same
    refine .inr ?_
    have now := new.symm.trans here
    cases now
    exact ⟨fun isDir => absurd ((file n old).symm.trans isDir) Bool.false_ne_true,
      fun _ _ => narrow_chmod chown_group⟩
  · exact (all q m ((frame q same).symm.trans here)).imp_left fun waits => ⟨waits, same⟩

theorem grantDir_sameKinds {gid : Option Nat} : t.SameKinds (grantDirAccess a gid t p).2 := by
  unfold grantDirAccess
  split
  next => exact .refl t
  next => exact grant_sameKinds

theorem grantDir_pending (all : t.All (cfg.Pending c frozen left)) (dir : t.isDir p = true) :
    (grantDirAccess a cfg.recordGid t p).2.All (cfg.Pending c frozen left) := by
  unfold grantDirAccess
  split
  next => exact all
  next found _ =>
    refine grant_all all (fun n _ held => held.imp_right fun guarded => guarded.chown _) ?_
    intro m n old kind held
    obtain ⟨d, there, isDir⟩ := Tree.isDir_iff.mp dir
    cases old.symm.trans there
    rw [kind] at isDir
    refine held.imp_right fun guarded => ⟨fun _ home => ?_, fun isFile => ?_⟩
    · exact passes_chmod (guarded.dir isDir home).group
    · cases isDir.symm.trans isFile

theorem grantDir_lands (all : t.All (cfg.Pending c frozen left)) (dir : t.isDir p = true)
    (landed : (grantDirAccess a cfg.recordGid t p).1 = true) :
    (grantDirAccess a cfg.recordGid t p).2.All
      (cfg.Pending c frozen fun q => left q ∧ q ≠ p) := by
  unfold grantDirAccess at landed ⊢
  split at landed
  next => cases landed
  next found _ =>
    obtain ⟨n, old, new, frame⟩ := grant_landed landed
    obtain ⟨d, there, isDir⟩ := Tree.isDir_iff.mp dir
    cases old.symm.trans there
    intro q m here
    by_cases same : q = p
    · subst same
      refine .inr ?_
      have now := new.symm.trans here
      cases now
      exact ⟨fun _ _ => passes_chmod chown_group,
        fun isFile => absurd (isFile.symm.trans isDir) Bool.false_ne_true⟩
    · exact (all q m ((frame q same).symm.trans here)).imp_left fun waits => ⟨waits, same⟩

theorem grantEach_sameKinds {gid : Option Nat} {mode : BitVec 32} {ring : Path}
    (names : List String) : ∀ t : Tree, t.SameKinds (grantEach a gid mode ring names t).2 := by
  induction names with
  | nil => exact fun t => .refl t
  | cons name names ih =>
    intro t
    unfold grantEach
    split
    next => exact grant_sameKinds.trans (ih (grantFileAccess a gid mode t (name :: ring)).2)
    next => exact ih t

theorem file_of_isFile (isFile : t.isFile p = true) : ∀ n, t.node p = some n → n.isDir = false := by
  intro n here
  obtain ⟨m, there, file⟩ := Tree.isFile_iff.mp isFile
  cases here.symm.trans there
  exact file

theorem grantEach_pending {ring : Path} (names : List String) :
    ∀ t : Tree, t.All (cfg.Pending c frozen left) →
      (grantEach a cfg.recordGid cfg.recordMode ring names t).2.All
        (cfg.Pending c frozen left) := by
  induction names with
  | nil => exact fun t all => all
  | cons name names ih =>
    intro t all
    unfold grantEach
    split
    next picked =>
      rw [Bool.and_eq_true] at picked
      exact ih _ (grantFile_pending all (file_of_isFile picked.2))
    next => exact ih t all

/-- A walk that lands leaves nothing pending at a ring file it was given. -/
theorem grantEach_lands {ring : Path} (seen : ∀ q, a.hides q = false) {file : Path → Bool}
    (names : List String) : ∀ (left : Path → Prop) (t : Tree), (∀ q, t.isFile q = file q) →
      t.All (cfg.Pending c frozen left) →
      (grantEach a cfg.recordGid cfg.recordMode ring names t).1 = true →
      (grantEach a cfg.recordGid cfg.recordMode ring names t).2.All (cfg.Pending c frozen fun q =>
        left q ∧ ∀ name ∈ names, isRingFile name = true → file q = true → q ≠ name :: ring) := by
  induction names with
  | nil =>
    intro left t _ all _ q n here
    exact (all q n here).imp_left fun waits => ⟨waits, fun name mem => absurd mem List.not_mem_nil⟩
  | cons name names ih =>
    intro left t same all landed
    rw [grantEach] at landed ⊢
    by_cases picked :
        (isRingFile name && !a.hides (name :: ring) && t.isFile (name :: ring)) = true
    · rw [if_pos picked] at landed ⊢
      rw [Bool.and_eq_true] at picked
      rw [also_landed] at landed
      have here := grantFile_lands all (file_of_isFile picked.2) landed.1
      have kinds : t.SameKinds
          (grantFileAccess a cfg.recordGid cfg.recordMode t (name :: ring)).2 := grant_sameKinds
      have rest := ih _ _ (fun q => (kinds.isFile q).trans (same q)) here landed.2
      intro q n there
      refine (rest q n there).imp_left fun ⟨⟨waits, apart⟩, later⟩ => ⟨waits, ?_⟩
      intro other mem ringFile isFile
      rcases List.mem_cons.mp mem with rfl | mem
      · exact apart
      · exact later other mem ringFile isFile
    · rw [if_neg picked] at landed ⊢
      have rest := ih left t same all landed
      intro q n there
      refine (rest q n there).imp_left fun ⟨waits, later⟩ => ⟨waits, ?_⟩
      intro other mem ringFile isFile
      rcases List.mem_cons.mp mem with rfl | mem
      · intro at_name
        rw [at_name, ← same] at isFile
        exact picked (by rw [ringFile, seen, isFile]; rfl)
      · exact later other mem ringFile isFile

theorem cfg_dbPath (named : cfg.dbDir ≠ []) : ∃ name, cfg.dbPath = name :: cfg.dbDir := by
  unfold dbDir at named ⊢
  cases path : cfg.dbPath with
  | nil => rw [path] at named; exact absurd rfl named
  | cons name dir => exact ⟨name, rfl⟩

/-- The record's directory is one. -/
theorem isDir_dbDir (opened : cfg.opened t = true) (named : cfg.dbDir ≠ []) :
    t.isDir cfg.dbDir = true := by
  unfold RecordAccess.opened at opened
  simp only [Bool.and_eq_true] at opened
  obtain ⟨name, path⟩ := cfg_dbPath named
  obtain ⟨n, here, -⟩ := Tree.isFile_iff.mp opened.1.1
  rw [path] at here
  obtain ⟨d, parent, isDir⟩ := t.rooted name cfg.dbDir n here
  exact Tree.isDir_iff.mpr ⟨d, parent, isDir⟩

theorem opened_of_sameKinds {t' : Tree} (same : t.SameKinds t') :
    cfg.opened t' = cfg.opened t := by
  unfold RecordAccess.opened
  rw [same.isFile, same.isDir, same.isDir]

theorem grantDbDir_sameKinds : t.SameKinds (cfg.grantDbDir a t).2 := by
  unfold grantDbDir
  split
  · exact .refl t
  · exact grantDir_sameKinds

theorem grantWal_sameKinds : t.SameKinds (cfg.grantWal a t).2 := by
  unfold grantWal
  split
  · exact grant_sameKinds
  · exact .refl t

theorem restrictRecord_sameKinds : t.SameKinds (cfg.restrictRecordAccess a t).2 :=
  (grantDbDir_sameKinds.trans grant_sameKinds).trans grantWal_sameKinds

theorem grantRingFiles_sameKinds {gid : Option Nat} {mode : BitVec 32} :
    t.SameKinds (grantRingFilesAccess a gid mode t p).2 := by
  unfold grantRingFilesAccess
  split
  · exact .refl t
  · exact grantEach_sameKinds _ t

theorem grantRing_sameKinds : t.SameKinds (cfg.grantRing a t).2 := by
  unfold grantRing
  split
  · exact grantDir_sameKinds.trans grantRingFiles_sameKinds
  · exact .refl t

theorem restrictBlob_sameKinds : t.SameKinds (cfg.restrictBlobAccess a t).2 :=
  grantDir_sameKinds.trans grantRing_sameKinds

theorem restrictAccess_sameKinds {b : PassCalls} : t.SameKinds (cfg.restrictAccess a b t).2 :=
  restrictRecord_sameKinds.trans restrictBlob_sameKinds

theorem file_of_not_isDir (none : t.isDir p = false) :
    ∀ n, t.node p = some n → n.isDir = false := by
  intro n here
  unfold Tree.isDir at none
  rw [here] at none
  exact none

/-- What the opening of the store shows of the record's own two files. -/
theorem opened_files (opened : cfg.opened t = true) :
    t.isFile cfg.dbPath = true ∧ t.isDir (walPath cfg.dbPath) = false ∧
      t.isDir cfg.blobDir = true := by
  unfold RecordAccess.opened at opened
  simp only [Bool.and_eq_true, Bool.not_eq_true'] at opened
  exact ⟨opened.1.1, opened.1.2, opened.2⟩

theorem restrictRecord_pending (opened : cfg.opened t = true)
    (all : t.All (cfg.Pending c frozen left)) :
    (cfg.restrictRecordAccess a t).2.All (cfg.Pending c frozen left) := by
  have first : (cfg.grantDbDir a t).2.All (cfg.Pending c frozen left) := by
    unfold grantDbDir
    split
    next => exact all
    next named => exact grantDir_pending all (isDir_dbDir opened named)
  obtain ⟨db, wal, -⟩ := opened_files opened
  have second := grantFile_pending (a := a) first
    (file_of_isFile ((grantDbDir_sameKinds.isFile cfg.dbPath).trans db))
  have kinds : t.SameKinds (grantFileAccess a cfg.recordGid cfg.recordMode
      (cfg.grantDbDir a t).2 cfg.dbPath).2 := grantDbDir_sameKinds.trans grant_sameKinds
  show (cfg.grantWal a _).2.All _
  unfold grantWal
  split
  next => exact grantFile_pending second (file_of_not_isDir ((kinds.isDir _).trans wal))
  next => exact second

theorem restrictBlob_pending (opened : cfg.opened t = true)
    (all : t.All (cfg.Pending c frozen left)) :
    (cfg.restrictBlobAccess a t).2.All (cfg.Pending c frozen left) := by
  have first := grantDir_pending (a := a) all (opened_files opened).2.2
  show (cfg.grantRing a _).2.All _
  unfold grantRing
  split
  next picked =>
    rw [Bool.and_eq_true] at picked
    have second := grantDir_pending (a := a) first picked.2
    show (grantRingFilesAccess a cfg.recordGid cfg.recordMode _ cfg.ringPath).2.All _
    unfold grantRingFilesAccess
    split
    next => exact second
    next => exact grantEach_pending _ _ second
  next => exact first

theorem restrictAccess_pending {b : PassCalls} (opened : cfg.opened t = true)
    (all : t.All (cfg.Pending c frozen left)) :
    (cfg.restrictAccess a b t).2.All (cfg.Pending c frozen left) :=
  restrictBlob_pending ((opened_of_sameKinds restrictRecord_sameKinds).trans opened)
    (restrictRecord_pending opened all)

theorem restrictRecord_lands (placed : cfg.dbDir ≠ []) (seen : ∀ q, a.hides q = false)
    (opened : cfg.opened t = true) (all : t.All (cfg.Pending c frozen left))
    (landed : (cfg.restrictRecordAccess a t).1 = true) :
    (cfg.restrictRecordAccess a t).2.All (cfg.Pending c frozen fun q =>
      ((left q ∧ q ≠ cfg.dbDir) ∧ q ≠ cfg.dbPath) ∧ q ≠ walPath cfg.dbPath) := by
  obtain ⟨firstTwo, third⟩ := also_landed.mp landed
  obtain ⟨one, two⟩ := also_landed.mp firstTwo
  obtain ⟨db, wal, -⟩ := opened_files opened
  have first : (cfg.grantDbDir a t).2.All
      (cfg.Pending c frozen fun q => left q ∧ q ≠ cfg.dbDir) := by
    unfold grantDbDir at one ⊢
    rw [if_neg placed] at one ⊢
    exact grantDir_lands all (isDir_dbDir opened placed) one
  have second := grantFile_lands first
    (file_of_isFile ((grantDbDir_sameKinds.isFile cfg.dbPath).trans db)) two
  have kinds : t.SameKinds (grantFileAccess a cfg.recordGid cfg.recordMode
      (cfg.grantDbDir a t).2 cfg.dbPath).2 := grantDbDir_sameKinds.trans grant_sameKinds
  show (cfg.grantWal a _).2.All _
  unfold grantWal at third ⊢
  split at third
  next picked =>
    rw [if_pos picked]
    exact grantFile_lands second (file_of_not_isDir ((kinds.isDir _).trans wal)) third
  next absent =>
    rw [if_neg absent]
    intro q n here
    refine (second q n here).imp_left fun waits => ⟨waits, fun same => absent ?_⟩
    rw [seen, ← same]
    exact Option.isSome_iff_exists.mpr ⟨n, here⟩

theorem restrictBlob_lands (seen : ∀ q, a.hides q = false) (opened : cfg.opened t = true)
    (all : t.All (cfg.Pending c frozen left))
    (landed : (cfg.restrictBlobAccess a t).1 = true) :
    (cfg.restrictBlobAccess a t).2.All (cfg.Pending c frozen fun q =>
      (left q ∧ q ≠ cfg.blobDir) ∧ (t.isDir q = true → q ≠ cfg.ringPath) ∧
        ∀ name, isRingFile name = true → t.isFile q = true → q ≠ name :: cfg.ringPath) := by
  obtain ⟨one, two⟩ := also_landed.mp landed
  have first := grantDir_lands all (opened_files opened).2.2 one
  have kinds : t.SameKinds (grantDirAccess a cfg.recordGid t cfg.blobDir).2 := grantDir_sameKinds
  show (cfg.grantRing a _).2.All _
  unfold grantRing at two ⊢
  split at two
  next picked =>
    rw [if_pos picked]
    rw [Bool.and_eq_true] at picked
    obtain ⟨ring, files⟩ := also_landed.mp two
    have second := grantDir_lands first picked.2 ring
    have both : t.SameKinds (grantDirAccess a cfg.recordGid
        (grantDirAccess a cfg.recordGid t cfg.blobDir).2 cfg.ringPath).2 :=
      kinds.trans grantDir_sameKinds
    show (grantRingFilesAccess a cfg.recordGid cfg.recordMode _ cfg.ringPath).2.All _
    unfold grantRingFilesAccess at files ⊢
    split at files
    next => cases files
    next walked =>
      rw [if_neg walked]
      have third := grantEach_lands seen _ _ _ both.isFile second files
      intro q n here
      refine (third q n here).imp_left fun ⟨⟨⟨waits, apart⟩, notRing⟩, ringFiles⟩ =>
        ⟨⟨waits, apart⟩, fun _ => notRing, fun name ringFile isFile same => ?_⟩
      refine ringFiles name (Tree.mem_children.mpr ?_) ringFile isFile same
      have there := (both.isFile q).trans isFile
      rw [same] at there
      obtain ⟨m, held, -⟩ := Tree.isFile_iff.mp there
      exact ⟨m, held⟩
  next absent =>
    rw [if_neg absent]
    have noDir : t.isDir cfg.ringPath = false := by
      rw [← kinds.isDir]
      rw [seen, Bool.not_false, Bool.true_and] at absent
      exact eq_false_of_ne_true absent
    intro q n here
    refine (first q n here).imp_left fun waits => ⟨waits, ?_, ?_⟩
    · intro isDir same
      rw [same, noDir] at isDir
      cases isDir
    · intro name _ isFile same
      rw [same] at isFile
      obtain ⟨m, held, -⟩ := Tree.isFile_iff.mp isFile
      obtain ⟨d, parent, isDir⟩ := t.rooted name cfg.ringPath m held
      rw [Tree.isDir_iff.mpr ⟨d, parent, isDir⟩] at noDir
      cases noDir

/-- A pass that lands, and sees what is there, leaves everything guarded. -/
theorem restrictAccess_guards {b : PassCalls} (placed : cfg.dbDir ≠ [])
    (seen : ∀ q, a.hides q = false) (seenBlob : ∀ q, b.hides q = false)
    (opened : cfg.opened t = true) (landed : (cfg.restrictAccess a b t).1 = true) :
    (cfg.restrictAccess a b t).2.All (cfg.Guarded c []) := by
  obtain ⟨one, two⟩ := also_landed.mp landed
  have everywhere : t.All (cfg.Pending c [] fun _ => True) := fun _ _ _ => .inl trivial
  have first := restrictRecord_lands placed seen opened everywhere one
  have kinds : t.SameKinds (cfg.restrictRecordAccess a t).2 := restrictRecord_sameKinds
  have second := restrictBlob_lands seenBlob ((opened_of_sameKinds kinds).trans opened) first two
  intro q n here
  rcases second q n here with ⟨⟨⟨⟨⟨-, dbDir⟩, db⟩, wal⟩, blob⟩, ring, files⟩ | guarded
  · have blobKinds : (cfg.restrictRecordAccess a t).2.SameKinds (cfg.restrictAccess a b t).2 :=
      restrictBlob_sameKinds
    constructor
    · intro isDir home
      have there := (blobKinds.isDir q).symm.trans (Tree.isDir_iff.mpr ⟨n, here, isDir⟩)
      rcases home with same | same | same | ⟨dir, mem, -⟩
      · exact absurd same dbDir
      · exact absurd same blob
      · exact absurd same (ring there)
      · cases mem
    · intro isFile keeps
      have there := (blobKinds.isFile q).symm.trans (Tree.isFile_iff.mpr ⟨n, here, isFile⟩)
      rcases keeps with same | same | ⟨name, ringFile, same | ⟨dir, mem, -⟩⟩
      · exact absurd same db
      · exact absurd same wal
      · exact absurd same (files name ringFile there)
      · cases mem
  · exact guarded

end Pass

end RecordAccess

end NetObserver
