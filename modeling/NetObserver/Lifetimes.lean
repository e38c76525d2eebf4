import Mathlib.Order.Bounds.Basic
import NetObserver.Keyed
import NetObserver.LastSome

/-! Keyed tables whose rows keep since when and until when a thing was seen. -/

/-- The upsert of such a table: a later write of a key leaves the first instant and sets the
last. -/
structure Lifetimes (ρ κ : Type*) where
  key : ρ → κ
  merge : ρ → ρ → ρ
  first : ρ → Int
  last : ρ → Int
  key_merge : ∀ old new, key (merge old new) = key old
  first_merge : ∀ old new, first (merge old new) = first old
  last_merge : ∀ old new, last (merge old new) = last new

namespace Lifetimes

open LastSome

variable {ρ κ β : Type*} (T : Lifetimes ρ κ)

/-- What the writes of one key leave. -/
def merged : List ρ → Option ρ
  | [] => none
  | w :: rest => some (rest.foldl T.merge w)

variable {T} {rows news written : List ρ} {r w : ρ} {k : κ}

theorem keeps_key (old new : ρ) (same : T.key old = T.key new) :
    T.key (T.merge old new) = T.key new := (T.key_merge old new).trans same

theorem foldl_some (sightings : List ρ) (r : ρ) :
    sightings.foldl (fun found new => some (found.elim new (T.merge · new))) (some r) =
      some (sightings.foldl T.merge r) := by
  induction sightings generalizing r with
  | nil => rfl
  | cons w rest ih => rw [List.foldl_cons, List.foldl_cons, Option.elim_some, ih]

theorem merged_isSome {sightings : List ρ} (mem : w ∈ sightings) :
    ∃ r, T.merged sightings = some r := by
  cases sightings with
  | nil => cases mem
  | cons first rest => exact ⟨_, rfl⟩

theorem merged_kept {field : ρ → β} (same : ∀ old new, field (T.merge old new) = field old)
    (sightings : List ρ) : (T.merged sightings).map field = sightings.head?.map field := by
  cases sightings with
  | nil => rfl
  | cons w rest => exact congrArg some (field_foldl_same field same rest w)

theorem merged_replaced {field : ρ → β} (same : ∀ old new, field (T.merge old new) = field new)
    (sightings : List ρ) : (T.merged sightings).map field = sightings.getLast?.map field := by
  cases sightings with
  | nil => rfl
  | cons w rest =>
    induction rest using List.reverseRecOn with
    | nil => rfl
    | append_singleton rest last _ =>
      rw [← List.cons_append, List.getLast?_concat]
      simp only [List.cons_append, merged, List.foldl_concat, Option.map_some, same]

theorem merged_coalesced {field : ρ → Option β}
    (same : ∀ old new, field (T.merge old new) = (field new).or (field old))
    (sightings : List ρ) : (T.merged sightings).bind field = lastSome? field sightings := by
  cases sightings with
  | nil => rfl
  | cons w rest =>
    rw [lastSome?_cons]
    exact field_foldl_or field same rest w

theorem merged_key {sightings : List ρ} (of : ∀ w ∈ sightings, T.key w = k)
    (found : T.merged sightings = some r) : T.key r = k := by
  have head := merged_kept T.key_merge sightings
  rw [found] at head
  obtain ⟨w, first, same⟩ := Option.map_eq_some_iff.mp head.symm
  rw [← same]
  exact of w (List.mem_of_mem_head? first)

variable [DecidableEq κ]

section

variable (T)

/-- The table after some writes, in their order. -/
def writes (rows news : List ρ) : List ρ := news.foldl (Keyed.upsert T.key T.merge) rows

def group (written : List ρ) (k : κ) : List ρ := written.filter fun w => T.key w = k

end

theorem writes_append (rows news more : List ρ) :
    T.writes (T.writes rows news) more = T.writes rows (news ++ more) := List.foldl_append.symm

/-- A table that each step of a run writes some rows to. -/
theorem foldl_writes {σ α : Type*} (table : σ → List ρ) {step : σ → α → σ} {brings : α → List ρ}
    (each : ∀ s a, table (step s a) = T.writes (table s) (brings a)) (run : List α) (s : σ) :
    table (run.foldl step s) = T.writes (table s) (run.flatMap brings) := by
  induction run generalizing s with
  | nil => rfl
  | cons a run ih => rw [List.foldl_cons, ih, each, writes_append, List.flatMap_cons]

theorem mem_group : w ∈ T.group written k ↔ w ∈ written ∧ T.key w = k := by
  simp [group]

/-- A row is as it was where no write is of its key, else it has what one that is brought. -/
theorem mem_writes_replaced {field : ρ → β} (same : ∀ old new, field (T.merge old new) = field new)
    (mem : r ∈ T.writes rows news) :
    (r ∈ rows ∧ ∀ w ∈ news, T.key w ≠ T.key r) ∨
      ∃ w ∈ news, T.key w = T.key r ∧ field r = field w := by
  induction news using List.reverseRecOn generalizing r with
  | nil =>
    left
    refine ⟨mem, fun w none_ => ?_⟩
    cases none_
  | append_singleton front new ih =>
    rw [← writes_append] at mem
    have last : new ∈ front ++ [new] := List.mem_append_right _ (List.mem_singleton_self new)
    rcases Keyed.mem_upsert.mp mem with ⟨earlier, apart⟩ | ⟨old, earlier, hit, rfl⟩ | ⟨-, rfl⟩
    · rcases ih earlier with ⟨was, other⟩ | ⟨w, listed, brought⟩
      · left
        refine ⟨was, fun w listed => ?_⟩
        rcases List.mem_append.mp listed with before | own
        · exact other w before
        · rw [List.mem_singleton.mp own]
          exact apart.symm
      · exact .inr ⟨w, List.mem_append_left _ listed, brought⟩
    · exact .inr ⟨new, last, hit.symm.trans (T.key_merge old new).symm, same old new⟩
    · exact .inr ⟨r, last, rfl, rfl⟩

/-- A row is as it was where no write is of its key, else it is dated by one that is. -/
theorem mem_writes (mem : r ∈ T.writes rows news) :
    (r ∈ rows ∧ ∀ w ∈ news, T.key w ≠ T.key r) ∨
      ∃ w ∈ news, T.key w = T.key r ∧ T.last r = T.last w :=
  mem_writes_replaced T.last_merge mem

/-- A key that is there or is written has a row. -/
theorem exists_key_writes (has : (∃ r ∈ rows, T.key r = k) ∨ ∃ w ∈ news, T.key w = k) :
    ∃ r ∈ T.writes rows news, T.key r = k := by
  induction news generalizing rows with
  | nil =>
    rcases has with held | ⟨w, none_, _⟩
    · exact held
    · cases none_
  | cons new news ih =>
    have keeps : ∀ old, T.key old = T.key new → T.key (T.merge old new) = T.key new :=
      fun old same => keeps_key old new same
    apply ih
    rcases has with ⟨r, held, same⟩ | ⟨w, listed, same⟩
    · left
      rw [← same]
      exact Keyed.exists_key_upsert_of_mem keeps held
    · rcases List.mem_cons.mp listed with rfl | later
      · left
        rw [← same]
        exact Keyed.exists_key_upsert keeps
      · exact .inr ⟨w, later, same⟩

/-- A row that is there takes the writes of its key one after the other. -/
theorem rowOf_writes_some (found : Keyed.rowOf T.key rows k = some r) (news : List ρ) :
    Keyed.rowOf T.key (T.writes rows news) k = some ((T.group news k).foldl T.merge r) := by
  rw [writes, Keyed.rowOf_foldl_upsert keeps_key, found]
  exact foldl_some _ _

theorem rowOf_writes_none (absent : Keyed.rowOf T.key rows k = none) (news : List ρ) :
    Keyed.rowOf T.key (T.writes rows news) k = T.merged (T.group news k) := by
  rw [writes, Keyed.rowOf_foldl_upsert keeps_key, absent, ← group]
  cases T.group news k with
  | nil => rfl
  | cons w rest => exact foldl_some rest w

/-- After some writes a coalesced field holds the last of them that gave one, else what it held. -/
theorem rowOf_writes_coalesced {field : ρ → Option β}
    (same : ∀ old new, field (T.merge old new) = (field new).or (field old)) (rows news : List ρ)
    (k : κ) : (Keyed.rowOf T.key (T.writes rows news) k).bind field =
      (lastSome? field (T.group news k)).or ((Keyed.rowOf T.key rows k).bind field) := by
  cases found : Keyed.rowOf T.key rows k with
  | none =>
    rw [rowOf_writes_none found, merged_coalesced same, Option.bind_none, Option.or_none]
  | some r =>
    rw [rowOf_writes_some found, Option.bind_some, Option.bind_some]
    exact field_foldl_or field same _ r

/-- A replaced field holds what the last write of the key gave. -/
theorem rowOf_writes_replaced {field : ρ → β}
    (same : ∀ old new, field (T.merge old new) = field new) (rows : List ρ)
    (last : (T.group news k).getLast? = some w) :
    (Keyed.rowOf T.key (T.writes rows news) k).map field = some (field w) := by
  cases found : Keyed.rowOf T.key rows k with
  | none => rw [rowOf_writes_none found, merged_replaced same, last, Option.map_some]
  | some r =>
    obtain ⟨front, split⟩ := List.getLast?_eq_some_iff.mp last
    rw [rowOf_writes_some found, split, List.foldl_concat, Option.map_some, same]

/-- Under the key of each row that was written stands one that carries what the last of them
brought. -/
def Written (T : Lifetimes ρ κ) (carries : ρ → ρ → Prop) (news rows : List ρ) : Prop :=
  ∀ w ∈ news, ∃ last, (T.group news (T.key w)).getLast? = some last ∧
    ∃ r ∈ rows, T.key r = T.key w ∧ carries r last

theorem written_writes {carries : ρ → ρ → Prop} (own : ∀ r, carries r r)
    (merged : ∀ old new, carries (T.merge old new) new) (rows news : List ρ) :
    T.Written carries news (T.writes rows news) := by
  intro w mem
  have some_ : T.group news (T.key w) ≠ [] := List.ne_nil_of_mem (mem_group.mpr ⟨mem, rfl⟩)
  have ends := List.getLast?_eq_some_getLast some_
  obtain ⟨front, split⟩ := List.getLast?_eq_some_iff.mp ends
  have found : Keyed.rowOf T.key (T.writes rows news) (T.key w) = _ :=
    Keyed.rowOf_foldl_upsert keeps_key rows news (T.key w)
  rw [← group, split, List.foldl_concat] at found
  obtain ⟨held, same⟩ := Keyed.rowOf_key found
  refine ⟨_, ends, _, held, same, ?_⟩
  cases front.foldl (fun found new => some (found.elim new (T.merge · new)))
      (Keyed.rowOf T.key rows (T.key w)) with
  | none => exact own _
  | some old => exact merged old _

/-- Writes of other keys leave a key's row as it is. -/
theorem rowOf_writes_other (apart : ∀ w ∈ news, T.key w ≠ k) :
    Keyed.rowOf T.key (T.writes rows news) k = Keyed.rowOf T.key rows k := by
  have none_ : (news.filter fun w => T.key w = k) = [] := by
    refine List.filter_eq_nil_iff.mpr fun w mem same => ?_
    exact apart w mem (of_decide_eq_true same)
  rw [writes, Keyed.rowOf_foldl_upsert keeps_key, none_]
  rfl

section

variable (T)

structure OneRowPerKey (written rows : List ρ) : Prop where
  distinct : (rows.map T.key).Nodup
  keys : ∀ k, (∃ r ∈ rows, T.key r = k) ↔ ∃ w ∈ written, T.key w = k

/-- Each row is first seen at the least and last seen at the greatest instant written for it. -/
structure TrueBounds (written rows : List ρ) : Prop where
  first : ∀ r ∈ rows, IsLeast {t | ∃ w ∈ written, T.key w = T.key r ∧ T.first w = t} (T.first r)
  last : ∀ r ∈ rows, IsGreatest {t | ∃ w ∈ written, T.key w = T.key r ∧ T.last w = t} (T.last r)

/-- Of the writes of a key the first is stamped least and the last greatest. -/
structure InOrder (written : List ρ) : Prop where
  first : ∀ k a, (T.group written k).head? = some a →
    ∀ w ∈ written, T.key w = k → T.first a ≤ T.first w
  last : ∀ k b, (T.group written k).getLast? = some b →
    ∀ w ∈ written, T.key w = k → T.last w ≤ T.last b

/-- The field holds what the last write of the row's key that had one gave. -/
def Coalesced (field : ρ → Option β) (written rows : List ρ) : Prop :=
  ∀ r ∈ rows, field r = lastSome? field (T.group written (T.key r))

end

theorem writes_keys_nodup (written : List ρ) : ((T.writes [] written).map T.key).Nodup := by
  have fresh : (([] : List ρ).map T.key).Nodup := List.nodup_nil
  exact Keyed.foldl_upsert_keys_nodup keeps_key fresh written

theorem mem_writes_iff : r ∈ T.writes [] written ↔ T.merged (T.group written (T.key r)) = some r := by
  have absent : Keyed.rowOf T.key ([] : List ρ) (T.key r) = none := rfl
  rw [← rowOf_writes_none absent written]
  constructor
  · intro mem
    exact Keyed.rowOf_of_mem (writes_keys_nodup written) mem
  · intro found
    exact (Keyed.rowOf_key found).1

/-- A write of a key means a row under it, merged from the key's writes. -/
theorem exists_row (mem : w ∈ written) (same : T.key w = k) :
    ∃ r ∈ T.writes [] written, T.key r = k ∧ T.merged (T.group written k) = some r := by
  obtain ⟨r, found⟩ := merged_isSome (T := T) (mem_group.mpr ⟨mem, same⟩)
  have key := merged_key (fun w held => (mem_group.mp held).2) found
  refine ⟨r, mem_writes_iff.mpr ?_, key, found⟩
  rw [key]
  exact found

theorem oneRowPerKey (written : List ρ) : T.OneRowPerKey written (T.writes [] written) := by
  refine ⟨writes_keys_nodup written, fun k => ?_⟩
  constructor
  · rintro ⟨r, mem, rfl⟩
    have found := mem_writes_iff.mp mem
    have head := merged_kept T.key_merge (T.group written (T.key r))
    rw [found] at head
    obtain ⟨w, first, _⟩ := Option.map_eq_some_iff.mp head.symm
    exact ⟨w, mem_group.mp (List.mem_of_mem_head? first)⟩
  · rintro ⟨w, mem, same⟩
    obtain ⟨r, held, key, _⟩ := exists_row mem same
    exact ⟨r, held, key⟩

theorem coalesced {field : ρ → Option β}
    (same : ∀ old new, field (T.merge old new) = (field new).or (field old)) (written : List ρ) :
    T.Coalesced field written (T.writes [] written) := by
  intro r mem
  have found := mem_writes_iff.mp mem
  have last := merged_coalesced same (T.group written (T.key r))
  rw [found] at last
  exact last

theorem first_of_merged (found : T.merged (T.group written k) = some r) :
    ∃ a, (T.group written k).head? = some a ∧ T.first a = T.first r := by
  have head := merged_kept T.first_merge (T.group written k)
  rw [found] at head
  exact Option.map_eq_some_iff.mp head.symm

theorem last_of_merged (found : T.merged (T.group written k) = some r) :
    ∃ b, (T.group written k).getLast? = some b ∧ T.last b = T.last r := by
  have last := merged_replaced T.last_merge (T.group written k)
  rw [found] at last
  exact Option.map_eq_some_iff.mp last.symm

/-- The rows bound the sightings exactly when each key's writes begin with the oldest and end with
the newest. -/
theorem trueBounds_iff (written : List ρ) :
    T.TrueBounds written (T.writes [] written) ↔ T.InOrder written := by
  constructor
  · intro bounds
    constructor
    case first =>
      intro k a head w mem same
      obtain ⟨r, held, key, found⟩ := exists_row mem same
      obtain ⟨a', head', value⟩ := first_of_merged found
      have eq := Option.some.inj (head.symm.trans head')
      rw [eq, value]
      exact (bounds.first r held).2 ⟨w, mem, same.trans key.symm, rfl⟩
    case last =>
      intro k b tail w mem same
      obtain ⟨r, held, key, found⟩ := exists_row mem same
      obtain ⟨b', tail', value⟩ := last_of_merged found
      have eq := Option.some.inj (tail.symm.trans tail')
      rw [eq, value]
      exact (bounds.last r held).2 ⟨w, mem, same.trans key.symm, rfl⟩
  · intro order
    constructor
    case first =>
      intro r mem
      obtain ⟨a, head, value⟩ := first_of_merged (mem_writes_iff.mp mem)
      obtain ⟨held, same⟩ := mem_group.mp (List.mem_of_mem_head? head)
      refine ⟨⟨a, held, same, value⟩, ?_⟩
      rintro t ⟨w, mem', same', rfl⟩
      rw [← value]
      exact order.first _ a head w mem' same'
    case last =>
      intro r mem
      obtain ⟨b, tail, value⟩ := last_of_merged (mem_writes_iff.mp mem)
      obtain ⟨held, same⟩ := mem_group.mp (List.mem_of_getLast? tail)
      refine ⟨⟨b, held, same, value⟩, ?_⟩
      rintro t ⟨w, mem', same', rfl⟩
      rw [← value]
      exact order.last _ b tail w mem' same'

theorem inOrder_of_pairwise (first : written.Pairwise fun a b => T.first a ≤ T.first b)
    (last : written.Pairwise fun a b => T.last a ≤ T.last b) : T.InOrder written := by
  constructor
  case first =>
    intro k a head w mem same
    have ordered := first.sublist (List.filter_sublist (p := fun w => decide (T.key w = k)))
    have held : w ∈ T.group written k := mem_group.mpr ⟨mem, same⟩
    change (T.group written k).Pairwise _ at ordered
    obtain ⟨rest, split⟩ := List.head?_eq_some_iff.mp head
    rw [split] at ordered held
    rcases List.mem_cons.mp held with rfl | later
    · exact Int.le_refl _
    · exact (List.pairwise_cons.mp ordered).1 w later
  case last =>
    intro k b tail w mem same
    have ordered := last.sublist (List.filter_sublist (p := fun w => decide (T.key w = k)))
    have held : w ∈ T.group written k := mem_group.mpr ⟨mem, same⟩
    change (T.group written k).Pairwise _ at ordered
    obtain ⟨front, split⟩ := List.getLast?_eq_some_iff.mp tail
    rw [split] at ordered held
    rcases List.mem_append.mp held with earlier | own
    · exact (List.pairwise_append.mp ordered).2.2 w earlier b (List.mem_singleton_self b)
    · rw [List.mem_singleton.mp own]

end Lifetimes
