import Mathlib.Data.List.AList

/-! Trees of files as far as access goes: what stands at a path, its group and its permission
bits. -/

namespace FileTree

/-- The last name comes first. -/
abbrev Path := List String

abbrev Perm := BitVec 12

def setgid : Perm := 0o2000

def setIds : Perm := 0o6000

def Within (a b : Perm) : Prop := a ||| b = b

instance (a b : Perm) : Decidable (Within a b) := inferInstanceAs (Decidable (_ = _))

theorem within_iff {a b : Perm} :
    Within a b ↔ ∀ i, a.getLsbD i = true → b.getLsbD i = true := by
  constructor
  · intro within i set
    rw [← within, BitVec.getLsbD_or, set, Bool.true_or]
  · intro bits
    refine BitVec.eq_of_getLsbD_eq fun i _ => ?_
    rw [BitVec.getLsbD_or]
    cases set : a.getLsbD i with
    | false => exact Bool.false_or _
    | true => rw [bits i set, Bool.true_or]

theorem Within.refl (a : Perm) : Within a a := BitVec.or_self

theorem Within.trans {a b c : Perm} (low : Within a b) (high : Within b c) : Within a c :=
  within_iff.mpr fun i set => within_iff.mp high i (within_iff.mp low i set)

theorem and_within (a b : Perm) : Within (a &&& b) a := within_iff.mpr fun i set => by
  rw [BitVec.getLsbD_and, Bool.and_eq_true] at set
  exact set.1

theorem within_or_left (a b : Perm) : Within a (a ||| b) := within_iff.mpr fun i set => by
  rw [BitVec.getLsbD_or, set, Bool.true_or]

theorem within_or_right (a b : Perm) : Within b (a ||| b) := within_iff.mpr fun i set => by
  rw [BitVec.getLsbD_or, set, Bool.or_true]

/-- Bits that a mask clears of the larger are clear in the smaller. -/
theorem Within.and_eq_zero {a b mask : Perm} (within : Within a b) (clear : b &&& mask = 0) :
    a &&& mask = 0 := by
  have small : Within (a &&& mask) (b &&& mask) := within_iff.mpr fun i set => by
    rw [BitVec.getLsbD_and, Bool.and_eq_true] at set ⊢
    exact ⟨within_iff.mp within i set.1, set.2⟩
  rw [clear] at small
  exact BitVec.or_zero.symm.trans small

structure Node where
  isDir : Bool
  gid : Nat
  perm : Perm
deriving DecidableEq

namespace Node

/-- The mode a stat reports, the bits of the file's kind in it. -/
def stMode (n : Node) : BitVec 32 :=
  (if n.isDir then 0o040000 else 0o100000) ||| n.perm.setWidth 32

/-- No group leaves the group; a file may lose its set-id bits. -/
def chown (gid : Option Nat) (clears : Bool) (n : Node) : Node :=
  { n with
    gid := gid.getD n.gid
    perm := if clears && !n.isDir then n.perm &&& ~~~setIds else n.perm }

/-- Permission bits only. -/
def chmod (mode : BitVec 32) (n : Node) : Node := { n with perm := mode.setWidth 12 }

@[simp] theorem chown_isDir (gid : Option Nat) (clears : Bool) (n : Node) :
    (n.chown gid clears).isDir = n.isDir := rfl

@[simp] theorem chmod_isDir (mode : BitVec 32) (n : Node) : (n.chmod mode).isDir = n.isDir := rfl

@[simp] theorem chmod_gid (mode : BitVec 32) (n : Node) : (n.chmod mode).gid = n.gid := rfl

theorem chown_perm_within (gid : Option Nat) (clears : Bool) (n : Node) :
    Within (n.chown gid clears).perm n.perm := by
  unfold chown
  dsimp only
  split
  · exact and_within _ _
  · exact Within.refl _

theorem chown_perm_of_isDir (gid : Option Nat) (clears : Bool) {n : Node}
    (dir : n.isDir = true) : (n.chown gid clears).perm = n.perm := by
  simp [chown, dir]

end Node

/-- How a process creates: its mask, its group, and whether a directory passes its group on even
without the setgid bit. -/
structure Creation where
  umask : Perm
  ownGid : Nat
  dirGroup : Bool

namespace Creation

def inherits (c : Creation) (d : Node) : Bool := c.dirGroup || d.perm &&& setgid == setgid

def groupIn (c : Creation) (d : Node) : Nat := if c.inherits d then d.gid else c.ownGid

def fileIn (c : Creation) (perm : Perm) (d : Node) : Node := ⟨false, c.groupIn d, perm⟩

def dirIn (c : Creation) (d : Node) : Node where
  isDir := true
  gid := c.groupIn d
  perm := 0o777 &&& ~~~c.umask ||| if c.dirGroup then 0 else d.perm &&& setgid

theorem groupIn_of_inherits {c : Creation} {d : Node} (passes : c.inherits d = true) :
    c.groupIn d = d.gid := if_pos passes

theorem inherits_of_within {c : Creation} {d : Node} (set : Within setgid d.perm) :
    c.inherits d = true := by
  unfold inherits
  rw [Bool.or_eq_true, beq_iff_eq]
  refine .inr (BitVec.eq_of_getLsbD_eq fun i _ => ?_)
  rw [BitVec.getLsbD_and]
  cases bit : setgid.getLsbD i with
  | false => exact Bool.and_false _
  | true => rw [within_iff.mp set i bit, Bool.and_self]

/-- What passes its group on makes directories that do. -/
theorem inherits_dirIn {c : Creation} {d : Node} (passes : c.inherits d = true) :
    c.inherits (c.dirIn d) = true := by
  cases bsd : c.dirGroup with
  | true =>
    unfold inherits
    rw [bsd, Bool.true_or]
  | false =>
    refine inherits_of_within ?_
    have set : d.perm &&& setgid = setgid := by simpa [inherits, bsd] using passes
    have perm : (c.dirIn d).perm = 0o777 &&& ~~~c.umask ||| setgid := by simp [dirIn, bsd, set]
    rw [perm]
    exact within_or_right _ _

end Creation

/-- Whatever stands at a path stands in a directory. -/
structure Tree where
  nodes : AList fun _ : Path => Node
  rooted : ∀ name dir n, nodes.lookup (name :: dir) = some n →
    ∃ d, nodes.lookup dir = some d ∧ d.isDir = true

namespace Tree

/-- The root alone. -/
def root (gid : Nat) (perm : Perm) : Tree where
  nodes := AList.singleton [] ⟨true, gid, perm⟩
  rooted := by
    intro name dir n here
    cases List.mem_singleton.mp (AList.mem_lookup_iff.mp here)

def node (t : Tree) (p : Path) : Option Node := t.nodes.lookup p

def isDir (t : Tree) (p : Path) : Bool := (t.node p).any Node.isDir

def isFile (t : Tree) (p : Path) : Bool := (t.node p).any fun n => !n.isDir

/-- The names in a directory. -/
def children (t : Tree) (dir : Path) : List String :=
  t.nodes.keys.filterMap fun
    | [] => none
    | name :: up => if up = dir then some name else none

/-- A change of what stands at a path that leaves its kind. -/
def update (t : Tree) (p : Path) (f : Node → Node) (kind : ∀ n, (f n).isDir = n.isDir) :
    Option Tree :=
  match found : t.nodes.lookup p with
  | none => none
  | some n => some
    { nodes := t.nodes.insert p (f n)
      rooted := by
        intro name dir m here
        have old : ∃ m, t.nodes.lookup (name :: dir) = some m := by
          by_cases same : name :: dir = p
          · exact ⟨n, same ▸ found⟩
          · exact ⟨m, (AList.lookup_insert_ne same).symm.trans here⟩
        obtain ⟨m, old⟩ := old
        obtain ⟨d, parent, isDir⟩ := t.rooted name dir m old
        by_cases same : dir = p
        · subst same
          rw [found] at parent
          cases parent
          exact ⟨f n, AList.lookup_insert _, (kind n).trans isDir⟩
        · exact ⟨d, (AList.lookup_insert_ne same).trans parent, isDir⟩ }

/-- Something new in a directory. -/
def add (t : Tree) (name : String) (dir : Path) (f : Node → Node) : Option Tree :=
  match parent : t.nodes.lookup dir with
  | none => none
  | some d =>
    if fits : d.isDir = true ∧ t.nodes.lookup (name :: dir) = none then some
      { nodes := t.nodes.insert (name :: dir) (f d)
        rooted := by
          intro other up m here
          have apart : dir ≠ name :: dir := (List.cons_ne_self _ _).symm
          by_cases same : other :: up = name :: dir
          · cases same
            exact ⟨d, (AList.lookup_insert_ne apart).trans parent, fits.1⟩
          · rw [AList.lookup_insert_ne same] at here
            obtain ⟨e, above, isDir⟩ := t.rooted other up m here
            refine ⟨e, (AList.lookup_insert_ne ?_).trans above, isDir⟩
            intro fresh
            rw [fresh, fits.2] at above
            cases above }
    else none

def removeFile (t : Tree) (p : Path) : Option Tree :=
  match found : t.nodes.lookup p with
  | none => none
  | some n =>
    if file : n.isDir = true then none
    else some
      { nodes := t.nodes.erase p
        rooted := by
          intro name dir m here
          by_cases same : name :: dir = p
          · rw [same, AList.lookup_erase] at here
            cases here
          · rw [AList.lookup_erase_ne same] at here
            obtain ⟨d, parent, isDir⟩ := t.rooted name dir m here
            refine ⟨d, (AList.lookup_erase_ne ?_).trans parent, isDir⟩
            intro gone
            rw [gone, found] at parent
            cases parent
            exact file isDir }

/-- A directory goes with all that is under it. -/
def removeDirAll (t : Tree) (p : Path) : Tree where
  nodes := ⟨t.nodes.entries.filter fun e => !p.isSuffixOf e.1,
    t.nodes.nodupKeys.sublist List.filter_sublist⟩
  rooted := by
    intro name dir n here
    have kept := List.mem_filter.mp (AList.mem_lookup_iff.mp here)
    obtain ⟨d, parent, isDir⟩ := t.rooted name dir n (AList.mem_lookup_iff.mpr kept.1)
    refine ⟨d, AList.mem_lookup_iff.mpr (List.mem_filter.mpr
      ⟨AList.mem_lookup_iff.mp parent, ?_⟩), isDir⟩
    have outside := kept.2
    simp only [Bool.not_eq_true', ← Bool.not_eq_true, List.isSuffixOf_iff_suffix] at outside ⊢
    exact fun under => outside (under.trans (List.suffix_cons name dir))

/-- A directory made, or found there; whether it is there then. -/
def makeDir (c : Creation) (refused : Path → Bool) (t : Tree) (name : String) (dir : Path) :
    Bool × Tree :=
  match if refused (name :: dir) then none else t.add name dir c.dirIn with
  | some t' => (true, t')
  | none => (t.isDir (name :: dir), t)

/-- `create_dir_all`: an ancestor that is missing is made first. -/
def createDirAll (c : Creation) (refused : Path → Bool) (t : Tree) : Path → Bool × Tree
  | [] => (true, t)
  | name :: dir =>
    if (t.node dir).isSome then makeDir c refused t name dir
    else
      let above := createDirAll c refused t dir
      if above.1 then makeDir c refused above.2 name dir else above

/-- A copy takes the bits of its source; where it is new, its group is the directory's. -/
def copyFile (t : Tree) (c : Creation) (source : Path) (name : String) (dir : Path) :
    Option Tree :=
  match t.node source with
  | none => none
  | some s =>
    if s.isDir then none
    else if t.isFile (name :: dir) then
      t.update (name :: dir) (fun n => { n with perm := s.perm }) fun _ => rfl
    else t.add name dir (c.fileIn s.perm)

def chown (t : Tree) (gid : Option Nat) (clears : Bool) (p : Path) : Option Tree :=
  t.update p (Node.chown gid clears) (Node.chown_isDir gid clears)

def chmod (t : Tree) (mode : BitVec 32) (p : Path) : Option Tree :=
  t.update p (Node.chmod mode) (Node.chmod_isDir mode)

/-- What holds of everything in a tree. -/
def All (P : Path → Node → Prop) (t : Tree) : Prop := ∀ p n, t.node p = some n → P p n

/-- Two trees with the same directories and files at the same paths. -/
def SameKinds (t t' : Tree) : Prop :=
  ∀ p, (t'.node p).map Node.isDir = (t.node p).map Node.isDir

theorem SameKinds.refl (t : Tree) : t.SameKinds t := fun _ => rfl

section Kinds

variable {t t' u : Tree} {p : Path} {n : Node}

theorem SameKinds.trans (first : t.SameKinds t') (second : t'.SameKinds u) : t.SameKinds u :=
  fun p => (second p).trans (first p)

theorem isDir_eq (t : Tree) (p : Path) : t.isDir p = ((t.node p).map Node.isDir).getD false := by
  unfold isDir
  cases t.node p <;> rfl

theorem SameKinds.isDir (same : t.SameKinds t') (p : Path) : t'.isDir p = t.isDir p := by
  rw [isDir_eq, isDir_eq, same p]

theorem SameKinds.isFile (same : t.SameKinds t') (p : Path) : t'.isFile p = t.isFile p := by
  have flip (u : Tree) : u.isFile p = ((u.node p).map Node.isDir).any fun dir => !dir := by
    unfold Tree.isFile
    cases u.node p <;> rfl
  rw [flip, flip, same p]

theorem SameKinds.node_eq_none (same : t.SameKinds t') :
    t'.node p = none ↔ t.node p = none := by
  rw [← Option.map_eq_none_iff (f := Node.isDir), same p, Option.map_eq_none_iff]

theorem isDir_iff : t.isDir p = true ↔ ∃ n, t.node p = some n ∧ n.isDir = true := by
  unfold isDir
  cases t.node p <;> simp

theorem isFile_iff : t.isFile p = true ↔ ∃ n, t.node p = some n ∧ n.isDir = false := by
  unfold isFile
  cases t.node p <;> simp

theorem mem_children {dir : Path} {name : String} :
    name ∈ t.children dir ↔ ∃ n, t.node (name :: dir) = some n := by
  have key : (∃ n, t.node (name :: dir) = some n) ↔ name :: dir ∈ t.nodes.keys := by
    rw [← Option.isSome_iff_exists]
    exact AList.lookup_isSome
  rw [key]
  unfold children
  rw [List.mem_filterMap]
  constructor
  · intro ⟨q, mem, here⟩
    cases q with
    | nil => cases here
    | cons other up =>
      dsimp only at here
      by_cases same : up = dir
      · rw [if_pos same] at here
        cases here
        rw [← same]
        exact mem
      · rw [if_neg same] at here
        cases here
  · intro mem
    exact ⟨name :: dir, mem, if_pos rfl⟩

/-- Under what is missing, or is a file, there is nothing. -/
theorem children_eq_nil {dir : Path} (absent : t.isDir dir = false) : t.children dir = [] := by
  refine List.eq_nil_iff_forall_not_mem.mpr fun name mem => ?_
  obtain ⟨n, here⟩ := mem_children.mp mem
  obtain ⟨d, parent, isDir⟩ := t.rooted name dir n here
  exact absurd (isDir_iff.mpr ⟨d, parent, isDir⟩) (by rw [absent]; exact Bool.false_ne_true)

end Kinds

section Steps

variable {P : Path → Node → Prop} {t t' : Tree} {p : Path} {name : String} {dir : Path}
  {f : Node → Node} {c : Creation}

theorem update_eq_some {kind : ∀ n, (f n).isDir = n.isDir} (updated : t.update p f kind = some t') :
    ∃ n, t.node p = some n ∧ t'.node p = some (f n) ∧ ∀ q, q ≠ p → t'.node q = t.node q := by
  unfold update at updated
  split at updated
  next => cases updated
  next n found =>
    cases updated
    exact ⟨n, found, AList.lookup_insert _, fun q apart => AList.lookup_insert_ne apart⟩

theorem add_eq_some (added : t.add name dir f = some t') :
    ∃ d, t.node dir = some d ∧ d.isDir = true ∧ t.node (name :: dir) = none ∧
      t'.node (name :: dir) = some (f d) ∧ ∀ q, q ≠ name :: dir → t'.node q = t.node q := by
  unfold add at added
  split at added
  next => cases added
  next d parent =>
    split at added
    next fits =>
      cases added
      exact ⟨d, parent, fits.1, fits.2, AList.lookup_insert _,
        fun q apart => AList.lookup_insert_ne apart⟩
    next => cases added

theorem removeFile_eq_some (removed : t.removeFile p = some t') :
    (∃ n, t.node p = some n ∧ n.isDir = false) ∧ t'.node p = none ∧
      ∀ q, q ≠ p → t'.node q = t.node q := by
  unfold removeFile at removed
  split at removed
  next => cases removed
  next n found =>
    split at removed
    next => cases removed
    next file =>
      cases removed
      exact ⟨⟨n, found, eq_false_of_ne_true file⟩, AList.lookup_erase _ _,
        fun q apart => AList.lookup_erase_ne apart⟩

theorem removeDirAll_node {q : Path} {n : Node} :
    (t.removeDirAll p).node q = some n ↔ t.node q = some n ∧ ¬ p <:+ q := by
  have kept : (t.removeDirAll p).node q = some n ↔
      ⟨q, n⟩ ∈ t.nodes.entries.filter fun e => !p.isSuffixOf e.1 := AList.mem_lookup_iff
  have held : t.node q = some n ↔ ⟨q, n⟩ ∈ t.nodes.entries := AList.mem_lookup_iff
  rw [kept, held, List.mem_filter]
  simp only [Bool.not_eq_true', ← Bool.not_eq_true, List.isSuffixOf_iff_suffix]

theorem update_sameKinds {kind : ∀ n, (f n).isDir = n.isDir}
    (updated : t.update p f kind = some t') : t.SameKinds t' := by
  obtain ⟨n, old, new, frame⟩ := update_eq_some updated
  intro q
  by_cases same : q = p
  · rw [same, old, new, Option.map_some, Option.map_some, kind n]
  · rw [frame q same]

theorem add_isDir (added : t.add name dir f = some t') {q : Path} (old : t.isDir q = true) :
    t'.isDir q = true := by
  obtain ⟨d, -, -, absent, -, frame⟩ := add_eq_some added
  obtain ⟨n, here, isDir⟩ := isDir_iff.mp old
  refine isDir_iff.mpr ⟨n, (frame q ?_).trans here, isDir⟩
  intro same
  rw [same, absent] at here
  cases here

theorem removeFile_isDir (removed : t.removeFile p = some t') {q : Path}
    (old : t.isDir q = true) : t'.isDir q = true := by
  obtain ⟨⟨m, gone, file⟩, -, frame⟩ := removeFile_eq_some removed
  obtain ⟨n, here, isDir⟩ := isDir_iff.mp old
  refine isDir_iff.mpr ⟨n, (frame q ?_).trans here, isDir⟩
  intro same
  rw [same, gone] at here
  cases here
  cases file.symm.trans isDir

theorem removeDirAll_isDir {q : Path} (old : t.isDir q = true) (apart : ¬ p <:+ q) :
    (t.removeDirAll p).isDir q = true := by
  obtain ⟨n, here, isDir⟩ := isDir_iff.mp old
  exact isDir_iff.mpr ⟨n, removeDirAll_node.mpr ⟨here, apart⟩, isDir⟩

/-- A change at one path. -/
theorem All.of_frame (all : All P t) (frame : ∀ q, q ≠ p → t'.node q = t.node q)
    (new : ∀ n, t'.node p = some n → P p n) : All P t' := by
  intro q n here
  by_cases same : q = p
  · rw [same] at here ⊢
    exact new n here
  · exact all q n ((frame q same).symm.trans here)

theorem All.update {kind : ∀ n, (f n).isDir = n.isDir} (all : All P t)
    (updated : t.update p f kind = some t')
    (keeps : ∀ n, t.node p = some n → P p n → P p (f n)) : All P t' := by
  obtain ⟨n, old, new, frame⟩ := update_eq_some updated
  refine all.of_frame frame fun m here => ?_
  cases new.symm.trans here
  exact keeps n old (all p n old)

theorem All.add (all : All P t) (added : t.add name dir f = some t')
    (born : ∀ d, d.isDir = true → P dir d → P (name :: dir) (f d)) : All P t' := by
  obtain ⟨d, parent, isDir, -, new, frame⟩ := add_eq_some added
  refine all.of_frame frame fun m here => ?_
  cases new.symm.trans here
  exact born d isDir (all dir d parent)

theorem All.removeFile (all : All P t) (removed : t.removeFile p = some t') : All P t' := by
  obtain ⟨-, gone, frame⟩ := removeFile_eq_some removed
  refine all.of_frame frame fun m here => ?_
  cases gone.symm.trans here

theorem All.removeDirAll (all : All P t) (p : Path) : All P (t.removeDirAll p) :=
  fun q m here => all q m (removeDirAll_node.mp here).1

/-- Where the parent is there, at most the directory itself is made. -/
theorem createDirAll_of_parent (c : Creation) (name : String) (refused : Path → Bool)
    (parent : t.isDir dir = true) :
    (createDirAll c refused t (name :: dir)).2 = t ∨
      t.add name dir c.dirIn = some (createDirAll c refused t (name :: dir)).2 := by
  obtain ⟨d, there, -⟩ := isDir_iff.mp parent
  rw [createDirAll, there, Option.isSome_some, if_pos rfl]
  unfold makeDir
  by_cases no : refused (name :: dir) = true
  · rw [if_pos no]
    exact .inl rfl
  · rw [if_neg no]
    cases added : t.add name dir c.dirIn with
    | none => exact .inl rfl
    | some t' => exact .inr rfl

theorem createDirAll_isDir (c : Creation) (name : String) (refused : Path → Bool)
    (parent : t.isDir dir = true) {q : Path} (old : t.isDir q = true) :
    (createDirAll c refused t (name :: dir)).2.isDir q = true := by
  rcases createDirAll_of_parent c name refused parent with same | added
  · rw [same]
    exact old
  · exact add_isDir added old

/-- A copy that succeeds leaves a file, and every directory. -/
theorem copyFile_isFile {source : Path} (copied : t.copyFile c source name dir = some t') :
    t'.isFile (name :: dir) = true ∧ ∀ q, t.isDir q = true → t'.isDir q = true := by
  unfold Tree.copyFile at copied
  split at copied
  next => cases copied
  next =>
    split at copied
    next => cases copied
    next =>
      split at copied
      next there =>
        have same := update_sameKinds copied
        exact ⟨(same.isFile _).trans there, fun q old => (same.isDir q).trans old⟩
      next =>
        obtain ⟨d, -, -, -, new, -⟩ := add_eq_some copied
        exact ⟨isFile_iff.mpr ⟨_, new, rfl⟩, fun q old => add_isDir copied old⟩

theorem All.copyFile {source : Path} (all : All P t)
    (copied : t.copyFile c source name dir = some t')
    (onto : ∀ s n, s.isDir = false → P source s → n.isDir = false → P (name :: dir) n →
      P (name :: dir) { n with perm := s.perm })
    (born : ∀ s d, s.isDir = false → P source s → d.isDir = true → P dir d →
      P (name :: dir) (c.fileIn s.perm d)) : All P t' := by
  unfold Tree.copyFile at copied
  split at copied
  next => cases copied
  next s here =>
    split at copied
    next => cases copied
    next file =>
      have isFile := eq_false_of_ne_true file
      have held := all source s here
      split at copied
      next there =>
        refine all.update copied fun n found old => onto s n isFile held ?_ old
        obtain ⟨m, same, kind⟩ := isFile_iff.mp there
        cases found.symm.trans same
        exact kind
      next => exact all.add copied fun d isDir parent => born s d isFile held isDir parent

end Steps

end Tree

end FileTree
