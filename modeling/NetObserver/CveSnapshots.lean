import NetObserver.VulnsView

/-! The CVE snapshot of the daemon: how its directory is loaded, and what a look-up by name answers
from it. -/

namespace NetObserver

def VulnDb.lookup (db : VulnDb) (product : String) (version : Option String) : List VulnMatch :=
  db.matchProduct ⟨none, product, version⟩

inductive CveSnapshot where
  | ready (db : VulnDb)
  | unusable (note : String)

/-- `loadFromDir` is what walking and parsing a directory gives. -/
def loadAndClassify (loadFromDir : String → Except String VulnDb) : Option String → CveSnapshot
  | none => .unusable "cve rung ran without a snapshot directory"
  | some dir =>
    match loadFromDir dir with
    | .error e =>
      .unusable ("snapshot at " ++ dir ++ " failed to load: " ++ e ++ "; findings NOT checked")
    | .ok db =>
      if db.entries.isEmpty then
        .unusable ("snapshot at " ++ dir ++ " is empty or wrong layout; findings NOT checked (not a clean 'no vulnerabilities')")
      else .ready db

/-- The part of the system's scanner that the snapshot is read through. -/
structure SystemScanner where
  cveSnapshotDir : Option String
  cveCache : Option VulnDb

inductive CveLookupOutcome where
  | found (list : List VulnMatch)
  | snapshotUnavailable (note : String)

namespace SystemScanner

variable (loadFromDir : String → Except String VulnDb)

/-- The index loaded first is used from then on; a directory that cannot be used is read again. -/
def snapshot (s : SystemScanner) : CveSnapshot :=
  match s.cveCache with
  | some db => .ready db
  | none => loadAndClassify loadFromDir s.cveSnapshotDir

def cached (s : SystemScanner) : SystemScanner :=
  match s.snapshot loadFromDir with
  | .ready db => { s with cveCache := some db }
  | .unusable _ => s

def cveLookup (s : SystemScanner) (product : String) (version : Option String) :
    CveLookupOutcome :=
  match s.snapshot loadFromDir with
  | .ready db => .found (db.lookup product version)
  | .unusable note => .snapshotUnavailable note

end SystemScanner

/-- `cve_lookup_table`: `decimal` writes a score. -/
def cveLookupTable (decimal : ℚ → String) (list : List VulnMatch) : QueryTable where
  columns := ["cve_id", "cvss", "known_exploited", "confidence", "summary"]
  rows := list.map fun m =>
    [m.cveId, (m.cvss.map decimal).getD "", toString m.knownExploited, m.confidence.token,
      m.summary]

/-- The notes of a snapshot that cannot be used: no directory, one that does not load, or an empty
one. -/
theorem note_cases {loadFromDir : String → Except String VulnDb} {s : SystemScanner}
    {note : String} (unusable : s.snapshot loadFromDir = .unusable note) :
    note = "cve rung ran without a snapshot directory" ∨
      (∃ dir e, note =
        "snapshot at " ++ dir ++ " failed to load: " ++ e ++ "; findings NOT checked") ∨
      ∃ dir, note = "snapshot at " ++ dir ++ " is empty or wrong layout; findings NOT checked (not a clean 'no vulnerabilities')" := by
  unfold SystemScanner.snapshot at unusable
  split at unusable
  · cases unusable
  · unfold loadAndClassify at unusable
    split at unusable
    · cases unusable
      exact Or.inl rfl
    · split at unusable
      · cases unusable
        exact Or.inr (Or.inl ⟨_, _, rfl⟩)
      · split at unusable
        · cases unusable
          exact Or.inr (Or.inr ⟨_, rfl⟩)
        · cases unusable

/-- The words every note of an unusable snapshot begins with. -/
theorem note_begins {loadFromDir : String → Except String VulnDb} {s : SystemScanner}
    {note : String} (unusable : s.snapshot loadFromDir = .unusable note) :
    "cve rung ".toList <+: note.toList ∨ "snapshot at ".toList <+: note.toList := by
  rcases note_cases unusable with rfl | ⟨dir, e, rfl⟩ | ⟨dir, rfl⟩
  · exact Or.inl ⟨"ran without a snapshot directory".toList, rfl⟩
  · right
    simp only [String.toList_append, List.append_assoc]
    exact List.prefix_append _ _
  · right
    simp only [String.toList_append, List.append_assoc]
    exact List.prefix_append _ _

/-- A snapshot once read is read the same way ever after. -/
theorem SystemScanner.snapshot_cached {loadFromDir later : String → Except String VulnDb}
    {s : SystemScanner} {db : VulnDb} (ready : s.snapshot loadFromDir = .ready db) :
    (s.cached loadFromDir).snapshot later = .ready db := by
  unfold cached
  rw [ready]
  rfl

end NetObserver
