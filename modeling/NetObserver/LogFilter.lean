import Mathlib.Algebra.BigOperators.Group.List.Lemmas
import NetObserver.LogFold
import NetObserver.LogRoundTrip

/-! What the byte scan in front of the parser keeps, and the fold as a group-by of the lines that
count. -/

namespace NetObserver
namespace SingboxLog

open Machine

section

variable {α : Type*}

/-- A word with one part at the end of what is left of a place and the rest behind it. -/
def Straddles (word left right : List α) : Prop :=
  ∃ i < word.length, 0 < i ∧ word.take i <:+ left ∧ word.drop i <+: right

theorem infix_append_cases {word a b : List α} (within : word <:+: a ++ b) :
    word <:+: a ∨ word <:+: b ∨ Straddles word a b := by
  obtain ⟨before, behind, whole⟩ := within
  rw [List.append_assoc] at whole
  rcases List.append_eq_append_iff.mp whole with ⟨u, split, rest⟩ | ⟨u, split, rest⟩
  · rcases List.append_eq_append_iff.mp rest with ⟨w, inside, _⟩ | ⟨v, parts, starts⟩
    · exact .inl ⟨before, w, by rw [split, inside, List.append_assoc]⟩
    · by_cases left : u = []
      · subst left
        exact .inr (.inl ⟨[], behind, by rw [parts, starts]; rfl⟩)
      · by_cases right : v = []
        · subst right
          exact .inl ⟨before, [], by rw [parts, split, List.append_nil, List.append_nil]⟩
        · have low := List.length_pos_of_ne_nil left
          have high := List.length_pos_of_ne_nil right
          refine .inr (.inr ⟨u.length, ?_, low, ?_, ?_⟩)
          · rw [parts, List.length_append]
            omega
          · rw [parts, List.take_left]
            exact ⟨before, split.symm⟩
          · rw [parts, List.drop_left]
            exact ⟨behind, starts.symm⟩
  · exact .inr (.inl ⟨u, behind, by rw [rest, List.append_assoc]⟩)

/-- A word in a text in pieces is within one of them or across a cut. -/
theorem infix_flatten_cases {word : List α} {pieces : List (List α)} (some_ : word ≠ [])
    (within : word <:+: pieces.flatten) :
    (∃ piece ∈ pieces, word <:+: piece) ∨
      ∃ i < pieces.length, Straddles word (pieces.take i).flatten (pieces.drop i).flatten := by
  induction pieces with
  | nil => exact absurd (List.infix_nil.mp within) some_
  | cons piece pieces ih =>
    rw [List.flatten_cons] at within
    rcases infix_append_cases within with here | later | across
    · exact .inl ⟨piece, List.mem_cons_self, here⟩
    · rcases ih later with ⟨other, mem, inside⟩ | ⟨i, short, j, within, low, ends, starts⟩
      · exact .inl ⟨other, List.mem_cons_of_mem piece mem, inside⟩
      · refine .inr ⟨i + 1, Nat.succ_lt_succ short, j, within, low, ?_, starts⟩
        rw [List.take_succ_cons, List.flatten_cons]
        exact ends.trans (List.suffix_append piece _)
    · cases pieces with
      | nil =>
        obtain ⟨j, short, _, _, starts⟩ := across
        have rest := List.prefix_nil.mp starts
        rw [List.drop_eq_nil_iff] at rest
        omega
      | cons next pieces =>
        refine .inr ⟨1, Nat.succ_lt_succ (Nat.succ_pos _), ?_⟩
        rw [List.take_succ_cons, List.take_zero, List.flatten_singleton]
        exact across

end

namespace Scan

/-- The text between the escape sequences: the run that a text begins with, and those behind. -/
def runs : Scan → List Char → List Char × List (List Char)
  | _, [] => ([], [])
  | scan, c :: rest =>
    let (first, later) := runs (scan.step c).1 rest
    if (scan.step c).2 then (c :: first, later) else ([], first :: later)

theorem flatten_runs (scan : Scan) (s : List Char) :
    (scan.runs s).1 ++ (scan.runs s).2.flatten = scan.strip s := by
  induction s generalizing scan with
  | nil => rfl
  | cons c s ih =>
    rw [runs, strip_cons]
    dsimp only
    split
    next => exact congrArg (c :: ·) (ih _)
    next => exact ih _

/-- Each run stands in the text as it is. -/
theorem runs_infix (scan : Scan) (s : List Char) :
    (scan.runs s).1 <+: s ∧ ∀ run ∈ (scan.runs s).2, run <:+: s := by
  induction s generalizing scan with
  | nil => exact ⟨List.prefix_refl [], fun run mem => absurd mem List.not_mem_nil⟩
  | cons c s ih =>
    obtain ⟨first, later⟩ := ih (scan.step c).1
    have wider {run : List Char} (inside : run <:+: s) : run <:+: c :: s :=
      inside.trans (List.suffix_cons c s).isInfix
    rw [runs]
    dsimp only
    split
    next => exact ⟨(List.prefix_cons_inj c).mpr first, fun run mem => wider (later run mem)⟩
    next =>
      refine ⟨List.nil_prefix, fun run mem => ?_⟩
      rcases List.mem_cons.mp mem with rfl | mem
      · exact wider first.isInfix
      · exact wider (later run mem)

end Scan

def textRuns (raw : List Char) : List (List Char) := (Scan.text.runs raw).1 :: (Scan.text.runs raw).2

/-- No escape sequence is within one of the words that the scan looks for. -/
def Unbroken (raw : List Char) : Prop :=
  ∀ token ∈ admitTokens, ∀ i < (textRuns raw).length,
    ¬ Straddles token ((textRuns raw).take i).flatten ((textRuns raw).drop i).flatten

instance (word left right : List Char) : Decidable (Straddles word left right) :=
  inferInstanceAs (Decidable (∃ i < word.length, 0 < i ∧ word.take i <:+ left ∧ word.drop i <+: right))

instance (raw : List Char) : Decidable (Unbroken raw) :=
  inferInstanceAs (Decidable (∀ token ∈ admitTokens, ∀ i < (textRuns raw).length,
    ¬ Straddles token ((textRuns raw).take i).flatten ((textRuns raw).drop i).flatten))

theorem admits_of_stripAnsi {raw token : List Char} (unbroken : Unbroken raw)
    (looked : token ∈ admitTokens) (within : token <:+: stripAnsi raw) : admits raw = true := by
  have some_ : token ≠ [] := by
    rintro rfl
    exact absurd looked (by decide)
  have shape : stripAnsi raw = (textRuns raw).flatten := by
    rw [textRuns, List.flatten_cons, Scan.flatten_runs]
    rfl
  have whole := Scan.runs_infix .text raw
  rw [shape] at within
  rcases infix_flatten_cases some_ within with ⟨run, mem, inside⟩ | ⟨i, short, across⟩
  · have there : run <:+: raw := by
      rcases List.mem_cons.mp mem with rfl | mem
      · exact whole.1.isInfix
      · exact whole.2 run mem
    exact List.any_eq_true.mpr ⟨token, looked, StdText.contains_iff.mpr (inside.trans there)⟩
  · exact absurd across (unbroken token looked i short)

/-- A line that counts has one of the words in its text. -/
theorem classify_token {raw : List Char} {l : LogLine} (parsed : parseLine raw = some l)
    (classed : (classify l).isSome = true) : ∃ token ∈ admitTokens, token <:+: stripAnsi raw := by
  obtain ⟨tsUs, level, rest, suffix, named, same⟩ := parseLine_rest parsed
  have message : l.message <:+: lineText raw := by
    rw [same]
    exact (message_suffix tsUs level rest).isInfix.trans suffix.isInfix
  have whole : lineText raw <:+: stripAnsi raw := (List.rdropWhile_prefix _ _).isInfix
  unfold classify at classed
  dsimp only at classed
  split at classed
  next started =>
    have front : startedText <+: l.message := List.isPrefixOf_iff_prefix.mp started.2
    exact ⟨startedText, by decide, (front.isInfix.trans message).trans whole⟩
  next =>
    split at classed
    next iface =>
      have front : ifaceText ++ [' '] <+: l.message := List.isPrefixOf_iff_prefix.mp iface.2
      have words : ifaceText <+: ifaceText ++ [' '] := List.prefix_append _ _
      exact ⟨ifaceText, by decide, ((words.trans front).isInfix.trans message).trans whole⟩
    next =>
      split at classed
      next => cases classed
      next alert =>
        have own : l.level = level := by rw [same, parseMessage_level]
        rw [own] at alert
        refine ⟨level.name, ?_, named.trans whole⟩
        cases level
        all_goals first
          | decide
          | exact absurd rfl alert

/-- The number of rows of a key, whether or not there is one. -/
def countOf (folded : Folded) (key : RowKey) : Nat :=
  (Keyed.rowOf rowKey folded.rows key).elim 0 SingboxLogSample.count

section

variable (tsUs oldestUs : Int)

def entries (raws : List (List Char)) : List (LogLine × RowKey) := raws.filterMap (entry oldestUs)

/-- The fold as a group-by of the lines that parse, are not stale and have a class. -/
structure FoldExact (raws : List (List Char)) : Prop where
  unfiltered : (foldLines tsUs oldestUs raws).rows =
    (raws.foldl (foldParsed tsUs oldestUs) ⟨[], 0⟩).rows
  keys : (foldLines tsUs oldestUs raws).rows.map rowKey =
    ((entries oldestUs raws).map Prod.snd).eraseDups
  distinct : ((foldLines tsUs oldestUs raws).rows.map rowKey).Nodup
  row : ∀ r ∈ (foldLines tsUs oldestUs raws).rows, ∃ first,
    (entries oldestUs raws).find? (fun e => e.2 = rowKey r) = some first ∧
      r = { rowOfEntry tsUs first with
        count := min ((entries oldestUs raws).countP fun e => e.2 = rowKey r) u32Max }
  stale : (foldLines tsUs oldestUs raws).stale =
    min (raws.countP fun raw => admits raw && isStale oldestUs raw) u32Max
  sum : raws.length ≤ u32Max →
    ((foldLines tsUs oldestUs raws).rows.map SingboxLogSample.count).sum +
        (foldLines tsUs oldestUs raws).stale =
      raws.countP fun raw => admits raw && (isStale oldestUs raw || (entry oldestUs raw).isSome)
  split : ∀ front back, raws = front ++ back → ∀ key,
    countOf (foldLines tsUs oldestUs raws) key =
      satAddU32 (countOf (foldLines tsUs oldestUs front) key)
        (countOf (foldLines tsUs oldestUs back) key)

theorem entry_classed {raw : List Char} {e : LogLine × RowKey} (counts : entry oldestUs raw = some e) :
    ∃ l, parseLine raw = some l ∧ ¬ l.tsUs < oldestUs ∧ (classify l).isSome = true := by
  obtain ⟨l, parsed, counts⟩ := Option.bind_eq_some_iff.mp counts
  split at counts
  next => cases counts
  next fresh =>
    obtain ⟨key, classed, _⟩ := Option.bind_eq_some_iff.mp counts
    exact ⟨l, parsed, fresh, by rw [classed]; rfl⟩

theorem admits_of_entry {raw : List Char} {e : LogLine × RowKey} (unbroken : Unbroken raw)
    (counts : entry oldestUs raw = some e) : admits raw = true := by
  obtain ⟨l, parsed, -, classed⟩ := entry_classed oldestUs counts
  obtain ⟨token, looked, within⟩ := classify_token parsed classed
  exact admits_of_stripAnsi unbroken looked within

theorem isStale_of_entry {raw : List Char} {e : LogLine × RowKey}
    (counts : entry oldestUs raw = some e) : isStale oldestUs raw = false := by
  obtain ⟨l, parsed, fresh, -⟩ := entry_classed oldestUs counts
  rw [isStale, parsed]
  exact decide_eq_false fresh

/-- Counting under each key once counts everything. -/
theorem sum_countP_of_nodup {κ : Type*} [DecidableEq κ] {distinct keys : List κ}
    (nodup : distinct.Nodup) (same : ∀ k, k ∈ distinct ↔ k ∈ keys) :
    (distinct.map fun k => keys.countP fun other => other = k).sum = keys.length := by
  have perm : distinct.Perm keys.dedup :=
    (List.perm_ext_iff_of_nodup nodup keys.nodup_dedup).mpr fun k =>
      (same k).trans List.mem_dedup.symm
  rw [(perm.map fun k => keys.countP fun other => other = k).sum_eq,
    ← List.sum_map_count_dedup_eq_length keys]
  rfl

theorem stale_eq (raws : List (List Char)) : (foldLines tsUs oldestUs raws).stale =
    min (raws.countP fun raw => admits raw && isStale oldestUs raw) u32Max := by
  rw [foldLines_eq, foldl_foldParsed_stale, List.countP_filter]
  simp only [Bool.and_comm]

variable {raws : List (List Char)} (unbroken : ∀ raw ∈ raws, Unbroken raw)

include unbroken

/-- No line that counts is left out by the scan. -/
theorem entries_admitted : (raws.filter admits).filterMap (entry oldestUs) = entries oldestUs raws := by
  unfold entries
  rw [List.filterMap_filter]
  refine List.filterMap_congr fun raw mem => ?_
  cases counts : entry oldestUs raw with
  | none => exact ite_self none
  | some e => exact if_pos (admits_of_entry oldestUs (unbroken raw mem) counts)

theorem rows_eq : (foldLines tsUs oldestUs raws).rows =
    ((entries oldestUs raws).map (rowOfEntry tsUs)).foldl (Keyed.upsert rowKey moreOf) [] := by
  rw [foldLines_eq, foldParsed_table, entries_admitted oldestUs unbroken]

theorem countOf_eq (key : RowKey) : countOf (foldLines tsUs oldestUs raws) key =
    min ((entries oldestUs raws).countP fun e => e.2 = key) u32Max := by
  rw [countOf, rows_eq tsUs oldestUs unbroken, rowOf_table]
  cases found : (entries oldestUs raws).find? fun e => e.2 = key with
  | none =>
    have none_ : (entries oldestUs raws).countP (fun e => e.2 = key) = 0 :=
      List.countP_eq_zero.mpr (List.find?_eq_none.mp found)
    rw [none_]
    rfl
  | some first => rfl

/-- Each line that the scan admits and that is stale or has a class is counted once. -/
theorem countP_admitted :
    (entries oldestUs raws).length + raws.countP (fun raw => admits raw && isStale oldestUs raw) =
      raws.countP fun raw => admits raw && (isStale oldestUs raw || (entry oldestUs raw).isSome) := by
  unfold entries
  rw [List.length_filterMap_eq_countP]
  induction raws with
  | nil => rfl
  | cons raw raws ih =>
    have rest := ih fun other mem => unbroken other (List.mem_cons_of_mem raw mem)
    simp only [List.countP_cons]
    cases counts : entry oldestUs raw with
    | none =>
      simp only [Option.isSome_none, Bool.or_false, Bool.false_eq_true, if_false]
      omega
    | some e =>
      have admitted := admits_of_entry oldestUs (unbroken raw List.mem_cons_self) counts
      have fresh := isStale_of_entry oldestUs counts
      simp only [admitted, fresh, Option.isSome_some, Bool.or_true, Bool.and_true, Bool.and_false,
        if_true, Bool.false_eq_true, if_false]
      omega

theorem rows_keys : (foldLines tsUs oldestUs raws).rows.map rowKey =
    ((entries oldestUs raws).map Prod.snd).eraseDups := by
  rw [rows_eq tsUs oldestUs unbroken, Keyed.foldl_upsert_keys rowKey_moreOf, List.map_map]
  rfl

theorem rows_distinct : ((foldLines tsUs oldestUs raws).rows.map rowKey).Nodup := by
  rw [rows_eq tsUs oldestUs unbroken]
  exact Keyed.foldl_upsert_keys_nodup rowKey_moreOf
    (show (([] : List SingboxLogSample).map rowKey).Nodup from List.nodup_nil) _

theorem rows_row {r : SingboxLogSample} (mem : r ∈ (foldLines tsUs oldestUs raws).rows) :
    ∃ first, (entries oldestUs raws).find? (fun e => e.2 = rowKey r) = some first ∧
      r = { rowOfEntry tsUs first with
        count := min ((entries oldestUs raws).countP fun e => e.2 = rowKey r) u32Max } := by
  have held := Keyed.rowOf_of_mem (rows_distinct tsUs oldestUs unbroken) mem
  rw [rows_eq tsUs oldestUs unbroken, rowOf_table] at held
  obtain ⟨first, found, same⟩ := Option.map_eq_some_iff.mp held
  exact ⟨first, found, same.symm⟩

theorem sum_eq (few : raws.length ≤ u32Max) :
    ((foldLines tsUs oldestUs raws).rows.map SingboxLogSample.count).sum +
        (foldLines tsUs oldestUs raws).stale =
      raws.countP fun raw => admits raw && (isStale oldestUs raw || (entry oldestUs raw).isSome) := by
  have entriesFew : (entries oldestUs raws).length ≤ u32Max :=
    Nat.le_trans (List.length_filterMap_le _ _) few
  have counts : (foldLines tsUs oldestUs raws).rows.map SingboxLogSample.count =
      ((foldLines tsUs oldestUs raws).rows.map rowKey).map fun k =>
        ((entries oldestUs raws).map Prod.snd).countP fun other => other = k := by
    rw [List.map_map]
    refine List.map_congr_left fun r mem => ?_
    obtain ⟨first, -, same⟩ := rows_row tsUs oldestUs unbroken mem
    have count := congrArg SingboxLogSample.count same
    have within := List.countP_le_length (p := fun e => e.2 = rowKey r) (l := entries oldestUs raws)
    rw [Function.comp_apply, List.countP_map]
    exact count.trans (Nat.min_eq_left (Nat.le_trans within entriesFew))
  have covered : ∀ k, k ∈ (foldLines tsUs oldestUs raws).rows.map rowKey ↔
      k ∈ (entries oldestUs raws).map Prod.snd := by
    intro k
    rw [rows_keys tsUs oldestUs unbroken, List.mem_eraseDups]
  have total := countP_admitted oldestUs unbroken
  have staleFew := List.countP_le_length (p := fun raw => admits raw && isStale oldestUs raw) (l := raws)
  rw [counts, sum_countP_of_nodup (rows_distinct tsUs oldestUs unbroken) covered, List.length_map,
    stale_eq]
  omega

/-- The fold is the group-by of the lines that count, and the scan in front of it is not seen. -/
theorem foldLines_exact : FoldExact tsUs oldestUs raws where
  unfiltered := by
    rw [foldLines_eq, foldParsed_table, foldParsed_table, entries_admitted oldestUs unbroken]
    rfl
  keys := rows_keys tsUs oldestUs unbroken
  distinct := rows_distinct tsUs oldestUs unbroken
  row _ mem := rows_row tsUs oldestUs unbroken mem
  stale := stale_eq tsUs oldestUs raws
  sum := sum_eq tsUs oldestUs unbroken
  split front back whole key := by
    subst whole
    have frontWhole : ∀ raw ∈ front, Unbroken raw := fun raw mem =>
      unbroken raw (List.mem_append_left back mem)
    have backWhole : ∀ raw ∈ back, Unbroken raw := fun raw mem =>
      unbroken raw (List.mem_append_right front mem)
    rw [countOf_eq tsUs oldestUs unbroken, countOf_eq tsUs oldestUs frontWhole,
      countOf_eq tsUs oldestUs backWhole, entries, List.filterMap_append, List.countP_append,
      satAddU32_min]
    unfold entries
    omega

end

def colouredLine : List Char := "+0000 2026-01-01 00:00:00 \x1b[31mERROR\x1b[0m x: y".toList

theorem foldLines_exact_colouredLine : FoldExact 7 0 [colouredLine, colouredLine] := by
  have unbroken : Unbroken colouredLine := by decide +kernel
  refine foldLines_exact 7 0 fun raw mem => ?_
  simp only [List.mem_cons, List.not_mem_nil, or_false, or_self] at mem
  subst mem
  exact unbroken

/-- A line below WARN that holds one of the words is admitted, and dropped as stale with the lines
that count; a line whose phrase an escape sequence parts is not admitted, and its row is missing. -/
theorem scan_shows :
    ((foldLines 0 i64Max ["+0000 2026-01-01 00:00:00 DEBUG x: an ERROR".toList]).stale = 1 ∧
      (["+0000 2026-01-01 00:00:00 DEBUG x: an ERROR".toList].countP fun raw =>
        isStale i64Max raw && ((parseLine raw).bind classify).isSome) = 0) ∧
    ((foldLines 0 0 ["+0000 2026-01-01 00:00:00 INFO sing-box \x1b[0mstarted".toList]).rows.length = 0 ∧
      (["+0000 2026-01-01 00:00:00 INFO sing-box \x1b[0mstarted".toList].foldl (foldParsed 0 0)
        ⟨[], 0⟩).rows.length = 1) := by
  decide +kernel

end SingboxLog
end NetObserver
