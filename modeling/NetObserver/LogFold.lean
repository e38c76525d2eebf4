import NetObserver.Keyed
import NetObserver.LogClass

/-! One tick's lines folded into a row for each class and node, with the lines the tick drops as
stale counted beside them. -/

namespace NetObserver
namespace SingboxLog

open Machine

/-- The byte scan in front of the parser looks for words in ASCII, so the bytes match where the
characters do. -/
def admitTokens : List (List Char) :=
  ["ERROR".toList, "WARN".toList, "FATAL".toList, "PANIC".toList, startedText, ifaceText]

def admits (raw : List Char) : Bool := admitTokens.any fun token => StdText.contains token raw

def sampleMessageMax : Nat := 200

def truncate (s : List Char) : List Char := s.take sampleMessageMax

structure Folded where
  rows : List SingboxLogSample
  stale : Nat

/-- The message keeps its component. -/
def rowMessage (line : LogLine) : List Char :=
  if line.component.isEmpty then line.message
  else
    match line.tag with
    | some tag => line.component ++ '[' :: (tag ++ ']' :: ':' :: ' ' :: line.message)
    | none => line.component ++ ':' :: ' ' :: line.message

abbrev RowKey := SingboxLogClass × Option String

def rowKey (r : SingboxLogSample) : RowKey := (r.logClass, r.node)

/-- One more line of a row's class and node, or the first of them. -/
def countRow (new : SingboxLogSample) : List SingboxLogSample → List SingboxLogSample
  | [] => [new]
  | r :: rows =>
    if r.logClass = new.logClass ∧ r.node = new.node then
      { r with count := satAddU32 r.count 1 } :: rows
    else r :: countRow new rows

/-- The row of a line that is the first of its class and node. -/
def firstRow (tsUs : Int) (line : LogLine) (key : RowKey) : SingboxLogSample where
  tsUs
  logClass := key.1
  count := 1
  node := key.2
  sampleMessage := some (String.ofList (truncate (rowMessage line)))

/-- A line behind the byte scan. -/
def foldParsed (tsUs oldestUs : Int) (folded : Folded) (raw : List Char) : Folded :=
  match parseLine raw with
  | none => folded
  | some line =>
    if line.tsUs < oldestUs then { folded with stale := satAddU32 folded.stale 1 }
    else
      match classify line with
      | none => folded
      | some key => { folded with rows := countRow (firstRow tsUs line key) folded.rows }

def foldLine (tsUs oldestUs : Int) (folded : Folded) (raw : List Char) : Folded :=
  if admits raw then foldParsed tsUs oldestUs folded raw else folded

def foldLines (tsUs oldestUs : Int) (raws : List (List Char)) : Folded :=
  raws.foldl (foldLine tsUs oldestUs) ⟨[], 0⟩

section

variable (tsUs oldestUs : Int)

/-- A line that parses and is older than the tick allows. -/
def isStale (raw : List Char) : Bool :=
  match parseLine raw with
  | none => false
  | some line => line.tsUs < oldestUs

/-- What a line counts for, parsed and classified: the line, and its class and node. -/
def entry (raw : List Char) : Option (LogLine × RowKey) := do
  let line ← parseLine raw
  if line.tsUs < oldestUs then none
  else
    let key ← classify line
    some (line, key)

def rowOfEntry (e : LogLine × RowKey) : SingboxLogSample := firstRow tsUs e.1 e.2

theorem foldParsed_rows (folded : Folded) (raw : List Char) :
    (foldParsed tsUs oldestUs folded raw).rows =
      (entry oldestUs raw).elim folded.rows fun e => countRow (rowOfEntry tsUs e) folded.rows := by
  unfold foldParsed entry
  cases parseLine raw with
  | none => rfl
  | some line =>
    simp only [bind, Option.bind_some]
    split
    next => rfl
    next =>
      cases classify line with
      | none => rfl
      | some key => rfl

theorem foldParsed_stale (folded : Folded) (raw : List Char) :
    (foldParsed tsUs oldestUs folded raw).stale =
      if isStale oldestUs raw then satAddU32 folded.stale 1 else folded.stale := by
  unfold foldParsed isStale
  cases parseLine raw with
  | none => rfl
  | some line =>
    simp only [decide_eq_true_eq]
    split
    next => rfl
    next =>
      cases classify line with
      | none => rfl
      | some key => rfl

/-- The rows are those of the lines that count, one after the other. -/
theorem foldl_foldParsed_rows (raws : List (List Char)) (folded : Folded) :
    (raws.foldl (foldParsed tsUs oldestUs) folded).rows =
      ((raws.filterMap (entry oldestUs)).map (rowOfEntry tsUs)).foldl (fun rows new => countRow new rows)
        folded.rows := by
  induction raws generalizing folded with
  | nil => rfl
  | cons raw raws ih =>
    rw [List.foldl_cons, ih, foldParsed_rows, List.filterMap_cons]
    cases entry oldestUs raw with
    | none => rfl
    | some e => rfl

theorem foldl_foldParsed_stale (raws : List (List Char)) :
    (raws.foldl (foldParsed tsUs oldestUs) ⟨[], 0⟩).stale =
      min (raws.countP (isStale oldestUs)) u32Max := by
  induction raws using List.reverseRecOn with
  | nil => rfl
  | append_singleton raws raw ih =>
    rw [List.foldl_concat, foldParsed_stale, ih, satAddU32_min, List.countP_append,
      List.countP_singleton]
    split
    · rfl
    · rfl

/-- The scan only leaves lines out. -/
theorem foldLines_eq (raws : List (List Char)) :
    foldLines tsUs oldestUs raws =
      (raws.filter admits).foldl (foldParsed tsUs oldestUs) ⟨[], 0⟩ := by
  rw [List.foldl_filter]
  rfl

end

def moreOf (old _new : SingboxLogSample) : SingboxLogSample :=
  { old with count := satAddU32 old.count 1 }

theorem rowKey_moreOf (old new : SingboxLogSample) (same : rowKey old = rowKey new) :
    rowKey (moreOf old new) = rowKey new := same

/-- In a table without two rows of one key the first row of a key is its only one. -/
theorem countRow_eq_upsert {rows : List SingboxLogSample} (distinct : (rows.map rowKey).Nodup)
    (new : SingboxLogSample) : countRow new rows = Keyed.upsert rowKey moreOf rows new := by
  induction rows with
  | nil => rfl
  | cons r rows ih =>
    rw [List.map_cons, List.nodup_cons] at distinct
    have key : (r.logClass = new.logClass ∧ r.node = new.node) ↔ rowKey r = rowKey new := by
      rw [rowKey, rowKey, Prod.mk.injEq]
    rw [countRow, ih distinct.2, Keyed.upsert, Keyed.upsert, List.any_cons, List.map_cons]
    by_cases here : rowKey r = rowKey new
    · have others : rows.map (fun old => if rowKey old = rowKey new then moreOf old new else old) =
          rows := by
        have kept : ∀ old ∈ rows, (if rowKey old = rowKey new then moreOf old new else old) = id old :=
          fun old mem => if_neg fun same =>
            distinct.1 (List.mem_map.mpr ⟨old, mem, same.trans here.symm⟩)
        exact (List.map_congr_left kept).trans (List.map_id rows)
      rw [if_pos (key.mpr here), if_pos (by simp [here]), if_pos here, others]
      rfl
    · rw [if_neg (mt key.mp here), if_neg here, decide_eq_false here, Bool.false_or]
      split
      · rfl
      · rfl

theorem foldl_countRow (news : List SingboxLogSample) :
    news.foldl (fun rows new => countRow new rows) [] = news.foldl (Keyed.upsert rowKey moreOf) [] := by
  induction news using List.reverseRecOn with
  | nil => rfl
  | append_singleton news new ih =>
    have distinct : ((news.foldl (Keyed.upsert rowKey moreOf) []).map rowKey).Nodup :=
      Keyed.foldl_upsert_keys_nodup rowKey_moreOf
        (show (([] : List SingboxLogSample).map rowKey).Nodup from List.nodup_nil) news
    rw [List.foldl_concat, List.foldl_concat, ih, countRow_eq_upsert distinct]

theorem foldl_more (first : SingboxLogSample) (one : first.count = 1) (more : List SingboxLogSample) :
    more.foldl (fun found new => some (found.elim new (moreOf · new))) (some first) =
      some { first with count := min (more.length + 1) u32Max } := by
  induction more using List.reverseRecOn with
  | nil =>
    cases first
    cases one
    rfl
  | append_singleton more new ih =>
    rw [List.foldl_concat, ih, List.length_append, List.length_singleton, Option.elim_some, moreOf,
      satAddU32_min]

section

variable (tsUs oldestUs : Int)

/-- The rows as a table of upserts. -/
theorem foldParsed_table (raws : List (List Char)) :
    (raws.foldl (foldParsed tsUs oldestUs) ⟨[], 0⟩).rows =
      ((raws.filterMap (entry oldestUs)).map (rowOfEntry tsUs)).foldl (Keyed.upsert rowKey moreOf) [] := by
  rw [foldl_foldParsed_rows, foldl_countRow]

/-- Each entry's row has its key, so the rows of a key are those of its entries. -/
theorem filter_rowOfEntry (entries : List (LogLine × RowKey)) (k : RowKey) :
    (entries.map (rowOfEntry tsUs)).filter (fun r => rowKey r = k) =
      (entries.filter fun e => e.2 = k).map (rowOfEntry tsUs) := by
  rw [List.filter_map]
  rfl

/-- Under a key stands the row of its first entry, with the number of its entries, capped. -/
theorem rowOf_table (entries : List (LogLine × RowKey)) (k : RowKey) :
    Keyed.rowOf rowKey ((entries.map (rowOfEntry tsUs)).foldl (Keyed.upsert rowKey moreOf) []) k =
      (entries.find? fun e => e.2 = k).map fun first =>
        { rowOfEntry tsUs first with count := min (entries.countP fun e => e.2 = k) u32Max } := by
  rw [Keyed.rowOf_foldl_upsert rowKey_moreOf, filter_rowOfEntry, List.countP_eq_length_filter,
    ← List.head?_filter]
  cases (entries.filter fun e => e.2 = k) with
  | nil => rfl
  | cons first more =>
    rw [List.map_cons, List.foldl_cons]
    have counted := foldl_more (rowOfEntry tsUs first) rfl (more.map (rowOfEntry tsUs))
    rw [List.length_map] at counted
    exact counted

end

end SingboxLog
end NetObserver
