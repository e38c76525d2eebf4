import NetObserver.RecordAccess

/-! What a landed access pass is worth later: the record's files as the database, `tcpdump` and
the freezes go on making them. -/

namespace NetObserver

open FileTree

namespace RecordAccess

/-- What every step keeps. -/
structure Sealed (cfg : RecordAccess) (c : Creation) (d : RecordDisk) : Prop where
  blob : d.tree.isDir cfg.blobDir = true
  guarded : d.tree.All (cfg.Guarded c d.frozen)

section Run

variable {cfg : RecordAccess} {c : Creation} {frozen : List String} {a : PassCalls} {t : Tree}
  {d d' : RecordDisk} {p : Path} {n : Node}

theorem pending_none :
    t.All (cfg.Pending c frozen fun _ => False) ↔ t.All (cfg.Guarded c frozen) :=
  ⟨fun all q n here => (all q n here).resolve_left id, fun all q n here => .inr (all q n here)⟩

theorem guarded_fileIn {perm : Perm} (passes : cfg.Passes c n)
    (within : Within perm (cfg.recordMode.setWidth 12 ||| 0o640)) :
    cfg.Guarded c frozen p (c.fileIn perm n) where
  dir isDir := by cases isDir
  file _ _ := ⟨fun g named =>
    (Creation.groupIn_of_inherits passes.inherits).trans (passes.group g named), within⟩

theorem guarded_dirIn (passes : cfg.Passes c n) : cfg.Guarded c frozen p (c.dirIn n) where
  dir _ _ := ⟨fun g named =>
    (Creation.groupIn_of_inherits passes.inherits).trans (passes.group g named),
    Creation.inherits_dirIn passes.inherits⟩
  file isFile := by cases isFile

/-- What the mask leaves of a new file's mode. -/
theorem born_within (umask : c.umask = daemonUmask) :
    Within (0o666 &&& ~~~c.umask) (cfg.recordMode.setWidth 12 ||| 0o640) := by
  have left : (0o666 : Perm) &&& ~~~daemonUmask = 0o640 := by decide
  rw [umask, left]
  exact within_or_right _ _

theorem createDirAll_guarded (name : String) (refused : Path → Bool)
    (blob : t.isDir cfg.blobDir = true) (all : t.All (cfg.Guarded c frozen)) :
    (t.createDirAll c refused (name :: cfg.blobDir)).2.All (cfg.Guarded c frozen) := by
  rcases Tree.createDirAll_of_parent c name refused blob with same | added
  · rw [same]
    exact all
  · exact all.add added fun d isDir guarded => guarded_dirIn (guarded.dir isDir (.inr (.inl rfl)))

theorem copyEach_guarded {dir : String} (mem : dir ∈ frozen) (names : List String) :
    ∀ t : Tree, t.isDir cfg.blobDir = true → t.All (cfg.Guarded c frozen) →
      (cfg.copyEach c a (dir :: cfg.blobDir) names t).isDir cfg.blobDir = true ∧
        (cfg.copyEach c a (dir :: cfg.blobDir) names t).All (cfg.Guarded c frozen) := by
  induction names with
  | nil => exact fun t blob all => ⟨blob, all⟩
  | cons name names ih =>
    intro t blob all
    unfold copyEach
    split
    next picked =>
      rw [Bool.and_eq_true] at picked
      split
      next t' result =>
        split at result
        next => cases result
        next =>
          obtain ⟨isFile, dirs⟩ := Tree.copyFile_isFile result
          have source (s : Node) (file : s.isDir = false)
              (guarded : cfg.Guarded c frozen (name :: cfg.ringPath) s) : cfg.Narrow s :=
            guarded.file file (.inr (.inr ⟨name, picked.1, .inl rfl⟩))
          have copied : t'.All (cfg.Guarded c frozen) := by
            refine all.copyFile result ?_ ?_
            · intro s n file held kind old
              refine ⟨fun isDir _ => ?_, fun isFile keeps => ?_⟩
              · exact absurd (kind.symm.trans isDir) Bool.false_ne_true
              · exact ⟨(old.file isFile keeps).group, (source s file held).perm⟩
            · intro s parent file held isDir home
              exact guarded_fileIn (home.dir isDir (.inr (.inr (.inr ⟨dir, mem, rfl⟩))))
                (source s file held).perm
          have granted := grantFile_pending (a := a) (pending_none.mpr copied)
            (file_of_isFile isFile)
          exact ih _ ((grant_sameKinds.isDir _).trans (dirs _ blob)) (pending_none.mp granted)
      next => exact ih t blob all
    next => exact ih t blob all

theorem copyRingFiles_guarded {dir : String} (mem : dir ∈ frozen)
    (blob : t.isDir cfg.blobDir = true) (all : t.All (cfg.Guarded c frozen)) :
    (cfg.copyRingFiles c a t (dir :: cfg.blobDir)).isDir cfg.blobDir = true ∧
      (cfg.copyRingFiles c a t (dir :: cfg.blobDir)).All (cfg.Guarded c frozen) := by
  have made := createDirAll_guarded (c := c) dir a.mkdir blob all
  have there := Tree.createDirAll_isDir c dir a.mkdir blob blob
  have owned := tryChown_all (a := a) (p := dir :: cfg.blobDir) made
    fun n _ held => Guarded.chown held (a.clears (dir :: cfg.blobDir))
  have stands := (tryChown_sameKinds (a := a) (g := cfg.recordGid)
    (p := dir :: cfg.blobDir).isDir cfg.blobDir).trans there
  unfold copyRingFiles
  dsimp only
  split
  next =>
    split
    next => exact ⟨stands, owned⟩
    next => exact copyEach_guarded mem _ _ stands owned
  next => exact ⟨there, made⟩

/-- A directory that is new, or one of these already, adds nothing that is not guarded. -/
theorem guarded_frozen {name : String} (fresh : t.node (name :: cfg.blobDir) = none ∨ name ∈ frozen)
    (all : t.All (cfg.Guarded c frozen)) : t.All (cfg.Guarded c (name :: frozen)) := by
  have known {dir : String} (mem : dir ∈ name :: frozen)
      (there : ∃ n, t.node (dir :: cfg.blobDir) = some n) : dir ∈ frozen := by
    rcases List.mem_cons.mp mem with rfl | mem
    · rcases fresh with absent | mem
      · obtain ⟨n, here⟩ := there
        cases absent.symm.trans here
      · exact mem
    · exact mem
  intro q n here
  have old := all q n here
  constructor
  · intro isDir home
    refine old.dir isDir (home.imp_right (Or.imp_right (Or.imp_right ?_)))
    intro ⟨dir, mem, same⟩
    exact ⟨dir, known mem ⟨n, same ▸ here⟩, same⟩
  · intro isFile keeps
    refine old.file isFile (keeps.imp_right (Or.imp_right ?_))
    intro ⟨file, ringFile, at_q⟩
    refine ⟨file, ringFile, at_q.imp_right ?_⟩
    intro ⟨dir, mem, same⟩
    rw [same] at here
    obtain ⟨d, parent, -⟩ := t.rooted file (dir :: cfg.blobDir) n here
    exact ⟨dir, known mem ⟨d, parent⟩, same⟩

theorem walPath_tail (p : Path) : (walPath p).tail = p.tail := by
  cases p <;> rfl

theorem Sealed.step {label : RecordStep} (umask : c.umask = daemonUmask)
    (stepped : cfg.step c d label = some d') (kept : cfg.Sealed c d) : cfg.Sealed c d' := by
  cases label with
  | walBorn =>
    unfold RecordAccess.step at stepped
    dsimp only at stepped
    split at stepped
    next => cases stepped
    next name dir path =>
      obtain ⟨t, added, rfl⟩ := Option.map_eq_some_iff.mp stepped
      have home : dir = cfg.dbDir := by
        have tail := walPath_tail cfg.dbPath
        rw [path] at tail
        exact tail
      refine ⟨Tree.add_isDir added kept.blob, kept.guarded.add added fun d isDir guarded => ?_⟩
      exact guarded_fileIn (guarded.dir isDir (.inl home)) (born_within umask)
  | walGone =>
    obtain ⟨t, removed, rfl⟩ := Option.map_eq_some_iff.mp stepped
    exact ⟨Tree.removeFile_isDir removed kept.blob, kept.guarded.removeFile removed⟩
  | ringStarted a =>
    cases stepped
    exact ⟨Tree.createDirAll_isDir c ringDir a.mkdir kept.blob kept.blob,
      createDirAll_guarded ringDir a.mkdir kept.blob kept.guarded⟩
  | ringOpened name =>
    unfold RecordAccess.step at stepped
    dsimp only at stepped
    split at stepped
    next =>
      obtain ⟨t, added, rfl⟩ := Option.map_eq_some_iff.mp stepped
      refine ⟨Tree.add_isDir added kept.blob, kept.guarded.add added fun d isDir guarded => ?_⟩
      exact guarded_fileIn (guarded.dir isDir (.inr (.inr (.inl rfl)))) (born_within umask)
    next => cases stepped
  | froze a name =>
    unfold RecordAccess.step at stepped
    dsimp only at stepped
    split at stepped
    next fresh =>
      cases stepped
      obtain ⟨blob, all⟩ := copyRingFiles_guarded (a := a) List.mem_cons_self kept.blob
        (guarded_frozen fresh kept.guarded)
      exact ⟨blob, all⟩
    next => cases stepped
  | pruned name =>
    unfold RecordAccess.step at stepped
    dsimp only at stepped
    split at stepped
    next =>
      cases stepped
      refine ⟨Tree.removeDirAll_isDir kept.blob fun under => ?_, kept.guarded.removeDirAll _⟩
      have short := under.length_le
      rw [List.length_cons] at short
      omega
    next => cases stepped
  | restarted record blob =>
    unfold RecordAccess.step at stepped
    dsimp only at stepped
    split at stepped
    next opened =>
      cases stepped
      exact ⟨(restrictAccess_sameKinds.isDir _).trans kept.blob, pending_none.mp
        (restrictAccess_pending opened (pending_none.mpr kept.guarded))⟩
    next => cases stepped

end Run

section Record

variable {cfg : RecordAccess} {ownGid : Nat} {dirGroup : Bool} {record blob : PassCalls} {t : Tree}
  {labels : List RecordStep} {d : RecordDisk}

/-- After a start whose access pass lands, whatever the database, `tcpdump` and the freezes make,
and whichever later calls are refused, the record, its log, the ring's files and the copies of
them are in the record's group and show no more than the record's mode and the daemon's mask do;
a mode that gives the world nothing leaves it nothing. -/
theorem record_stays_narrow (placed : cfg.dbDir ≠ []) (seen : ∀ q, record.hides q = false)
    (seenBlob : ∀ q, blob.hides q = false) (opened : cfg.opened t = true)
    (landed : (cfg.restrictAccess record blob t).1 = true)
    (ran : Runs.runSteps (step (creation ownGid dirGroup) cfg)
      ⟨(cfg.restrictAccess record blob t).2, []⟩ labels = some d) {p : Path} {n : Node}
    (here : d.tree.node p = some n) (file : n.isDir = false) (keeps : cfg.Keeps d.frozen p) :
    (∀ g, cfg.recordGid = some g → n.gid = g) ∧
      Within n.perm (cfg.recordMode.setWidth 12 ||| 0o640) ∧
      (cfg.recordMode.setWidth 12 &&& (0o007 : Perm) = 0 → n.perm &&& 0o007 = 0) := by
  have start : cfg.Sealed (creation ownGid dirGroup) ⟨(cfg.restrictAccess record blob t).2, []⟩ :=
    ⟨(restrictAccess_sameKinds.isDir _).trans (opened_files opened).2.2,
      restrictAccess_guards placed seen seenBlob opened landed⟩
  have kept := Runs.runSteps_invariant
    (fun s label s' stepped (kept : cfg.Sealed _ s) => kept.step rfl stepped) ran start
  have narrow := (kept.guarded p n here).file file keeps
  refine ⟨narrow.group, narrow.perm, fun world => narrow.perm.and_eq_zero ?_⟩
  have own : (0o640 : Perm) &&& 0o007 = 0 := by decide
  rw [BitVec.and_or_distrib_right, world, own]
  rfl

end Record

/-- A record an earlier build left readable to all, with a ring in the blob directory. -/
def worldReadable : Option Tree :=
  ((Tree.root 0 0o755).add "var" [] fun _ => ⟨true, 0, 0o755⟩).bind fun t =>
  (t.add "observer.duckdb" ["var"] fun _ => ⟨false, 0, 0o644⟩).bind fun t =>
  (t.add "blobs" ["var"] fun _ => ⟨true, 0, 0o755⟩).bind fun t =>
  (t.add "ring" ["blobs", "var"] fun _ => ⟨true, 0, 0o755⟩).bind fun t =>
  t.add "ring.pcap0" ["ring", "blobs", "var"] fun _ => ⟨false, 0, 0o644⟩

def staffOnly : RecordAccess := ⟨["observer.duckdb", "var"], ["blobs", "var"], some 20, 0o640⟩

/-- A freeze none of whose copies can be given group or mode. -/
def frozenUngranted : List RecordStep :=
  [.walBorn, .froze { PassCalls.fine with chown := fun _ => true, chmod := fun _ => true } "freeze-7"]

theorem record_stays_narrow_ungranted : ∃ t d n, worldReadable = some t ∧
    Runs.runSteps (step (creation 0 false) staffOnly)
      ⟨(staffOnly.restrictAccess .fine .fine t).2, []⟩ frozenUngranted = some d ∧
    d.tree.node ["ring.pcap0", "freeze-7", "blobs", "var"] = some n ∧ n.gid = 20 ∧
    n.perm &&& 0o007 = 0 := by
  have known : (worldReadable.bind fun t =>
      if staffOnly.opened t ∧ (staffOnly.restrictAccess .fine .fine t).1 then
        (Runs.runSteps (step (creation 0 false) staffOnly)
          ⟨(staffOnly.restrictAccess .fine .fine t).2, []⟩ frozenUngranted).bind fun d =>
            if d.frozen = ["freeze-7"] then
              d.tree.node ["ring.pcap0", "freeze-7", "blobs", "var"]
            else none
      else none).map Node.isDir = some false := by decide +kernel
  obtain ⟨n, known, file⟩ := Option.map_eq_some_iff.mp known
  obtain ⟨t, stands, known⟩ := Option.bind_eq_some_iff.mp known
  split at known
  next start =>
    obtain ⟨d, ran, known⟩ := Option.bind_eq_some_iff.mp known
    split at known
    next frozen =>
      have copies : staffOnly.Keeps d.frozen ["ring.pcap0", "freeze-7", "blobs", "var"] := by
        rw [frozen]
        exact .inr (.inr ⟨"ring.pcap0", rfl, .inr ⟨"freeze-7", List.mem_cons_self, rfl⟩⟩)
      have told := @record_stays_narrow staffOnly 0 false .fine .fine t frozenUngranted d
        (List.cons_ne_nil _ _) (fun _ => rfl) (fun _ => rfl) start.1 start.2 ran _ n known file
        copies
      exact ⟨t, d, n, stands, ran, known, told.1 20 rfl, told.2.2 (by decide)⟩
    next => cases known
  next => cases known

end RecordAccess

end NetObserver
