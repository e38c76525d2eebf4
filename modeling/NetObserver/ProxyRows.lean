import Mathlib.Data.List.Induction
import Mathlib.Data.List.SplitBy
import NetObserver.SingboxConditions

/-! A proxy tick's rows: how the probed endpoints and the URL-test readings are packed onto them,
and what the trigger conditions read back. -/

namespace NetObserver

structure PingOutcome where
  reachable : Bool
  rttMs : Option F64

structure StreamCheck where
  alive : Bool
  ageS : Nat

/-- The held reference streams' reading; a side without one is no measurement. -/
structure StallReading where
  direct : Option StreamCheck
  tun : Option StreamCheck

structure UrlTestEntry where
  atUs : Int
  ms : Nat
deriving DecidableEq

/-- One node's URL-test reading on one tick, with the endpoint the config names for it. -/
structure UrlTest where
  node : String
  endpoint : Option String
  entry : Option UrlTestEntry
  absentSinceUs : Option Int
deriving DecidableEq

def PingOutcome.tcp (o : PingOutcome) : TcpVerdict := if o.reachable then .ok else .fail

/-- The tick's facts, as every row carries them. -/
def sharedRow (tsUs : Int) (tunCode : Option Nat) (selector : Option String)
    (stall : StallReading) : ProxySample where
  tsUs := tsUs
  serverIp := "-"
  tcp := .skip
  rttMs := none
  tunCode := tunCode
  selector := selector
  estDirectAlive := stall.direct.map (·.alive)
  estDirectAgeS := stall.direct.map (·.ageS)
  estTunAlive := stall.tun.map (·.alive)
  estTunAgeS := stall.tun.map (·.ageS)
  urltestMs := none
  urltestAtUs := none
  urltestNode := none
  urltestAbsentSinceUs := none

def endpointRow (shared : ProxySample) (p : String × PingOutcome) : ProxySample :=
  { shared with serverIp := p.1, tcp := p.2.tcp, rttMs := p.2.rttMs }

namespace UrlTest

/-- The row once the reading rides it. -/
def ride (t : UrlTest) (r : ProxySample) : ProxySample :=
  { r with
    urltestMs := t.entry.map (·.ms)
    urltestAtUs := t.entry.map (·.atUs)
    urltestNode := some t.node
    urltestAbsentSinceUs := t.absentSinceUs }

def takes (t : UrlTest) (r : ProxySample) : Bool :=
  r.urltestNode.isNone && t.endpoint == some r.serverIp

/-- The row of a reading that finds no endpoint's row free. -/
def readingOnlyRow (t : UrlTest) (shared : ProxySample) : ProxySample :=
  t.ride { shared with serverIp := t.endpoint.getD "-" }

end UrlTest

def placeTest (shared : ProxySample) (rows : List ProxySample) (t : UrlTest) : List ProxySample :=
  match rows.findIdx? t.takes with
  | some home => rows.modify home t.ride
  | none => rows ++ [t.readingOnlyRow shared]

def carriesSelected (r : ProxySample) : Bool :=
  r.urltestNode.isSome && r.urltestNode == r.selector

/-- One row per probed endpoint, or the placeholder; each reading on the first free row of its
endpoint, else on a row of its own; the selected node's row last. -/
def buildProxySamples (tsUs : Int) (tunCode : Option Nat) (selector : Option String)
    (stall : StallReading) (probed : List (String × PingOutcome)) (urltests : List UrlTest) :
    List ProxySample :=
  let shared := sharedRow tsUs tunCode selector stall
  let rows := probed.map (endpointRow shared)
  let rows := if rows.isEmpty then [shared] else rows
  let rows := urltests.foldl (placeTest shared) rows
  rows.mergeSort fun a b => !carriesSelected a || carriesSelected b

/-- What is measured once a tick and written on each of its rows. -/
structure ProxyTickFacts where
  tsUs : Int
  tunCode : Option Nat
  selector : Option String
  estDirectAlive : Option Bool
  estDirectAgeS : Option Nat
  estTunAlive : Option Bool
  estTunAgeS : Option Nat

def ProxySample.tickFacts (r : ProxySample) : ProxyTickFacts :=
  ⟨r.tsUs, r.tunCode, r.selector, r.estDirectAlive, r.estDirectAgeS, r.estTunAlive, r.estTunAgeS⟩

/-- The raw outcome of the tick for an endpoint. -/
def rawTcp (probed : List (String × PingOutcome)) (endpoint : String) : TcpVerdict :=
  ((probed.find? fun p => p.1 == endpoint).map fun p => p.2.tcp).getD .skip

/-- The reading that rides an endpoint's row: the first whose node tests through it. -/
def homeTest (tests : List UrlTest) (endpoint : String) : Option UrlTest :=
  tests.find? fun t => t.endpoint == some endpoint

def ridesEndpointRow (probed : List (String × PingOutcome)) (tests : List UrlTest) (t : UrlTest) :
    Bool :=
  probed.any fun p => homeTest tests p.1 == some t

/-- The verdict of the row a reading stands on. -/
def placedTcp (probed : List (String × PingOutcome)) (tests : List UrlTest) (t : UrlTest) :
    TcpVerdict :=
  if ridesEndpointRow probed tests t then rawTcp probed (t.endpoint.getD "-") else .skip

def packedRow (shared : ProxySample) (tests : List UrlTest) (p : String × PingOutcome) :
    ProxySample :=
  match homeTest tests p.1 with
  | some t => t.ride (endpointRow shared p)
  | none => endpointRow shared p

def placeholder (shared : ProxySample) (probed : List (String × PingOutcome)) :
    List ProxySample :=
  if probed.isEmpty then [shared] else []

def strays (probed : List (String × PingOutcome)) (tests : List UrlTest) : List UrlTest :=
  tests.filter fun t => !ridesEndpointRow probed tests t

/-- The rows as a whole, before the selected one moves: the endpoints', the placeholder, the
readings that found no home. -/
def packedRows (shared : ProxySample) (probed : List (String × PingOutcome))
    (tests : List UrlTest) : List ProxySample :=
  probed.map (packedRow shared tests) ++ placeholder shared probed ++
    (strays probed tests).map (·.readingOnlyRow shared)

/-- What a tick must be for its rows to read back: each endpoint probed once, each node read once,
and `-` no endpoint's name. -/
structure TickInput (probed : List (String × PingOutcome)) (tests : List UrlTest) : Prop where
  endpoints : (probed.map (·.1)).Nodup
  nodes : (tests.map (·.node)).Nodup
  named : ∀ p ∈ probed, p.1 ≠ "-"
  tested : ∀ t ∈ tests, t.endpoint ≠ some "-"

theorem TickInput.endpoint_inj {probed : List (String × PingOutcome)} {tests : List UrlTest}
    (input : TickInput probed tests) {p q : String × PingOutcome} (hp : p ∈ probed)
    (hq : q ∈ probed) (same : p.1 = q.1) : p = q :=
  List.inj_on_of_nodup_map input.endpoints hp hq same

theorem TickInput.node_inj {probed : List (String × PingOutcome)} {tests : List UrlTest}
    (input : TickInput probed tests) {t u : UrlTest} (ht : t ∈ tests) (hu : u ∈ tests)
    (same : t.node = u.node) : t = u :=
  List.inj_on_of_nodup_map input.nodes ht hu same

/-- Where no two elements have a property, changing the first that has it changes all. -/
theorem modify_findIdx_eq_map {α : Type*} {p : α → Bool} {f : α → α} {xs : List α} {i : Nat}
    (found : xs.findIdx? p = some i)
    (unique : xs.Pairwise fun a b => ¬ (p a = true ∧ p b = true)) :
    xs.modify i f = xs.map fun x => if p x then f x else x := by
  induction xs generalizing i with
  | nil => cases found
  | cons x xs ih =>
    obtain ⟨apart, rest⟩ := List.pairwise_cons.mp unique
    rw [List.findIdx?_cons] at found
    split at found
    next here =>
      obtain rfl := Option.some.inj found
      have others : xs.map (fun y => if p y then f y else y) = xs := by
        refine (List.map_congr_left fun y listed => ?_).trans (List.map_id xs)
        exact if_neg fun holds => apart y listed ⟨here, holds⟩
      rw [List.modify_zero_cons, List.map_cons, if_pos here, others]
    next missed =>
      obtain ⟨j, later, rfl⟩ := Option.map_eq_some_iff.mp found
      rw [List.modify_succ_cons, ih later rest, List.map_cons, if_neg missed]

theorem homeTest_snoc (tests : List UrlTest) (t : UrlTest) (endpoint : String) :
    homeTest (tests ++ [t]) endpoint =
      (homeTest tests endpoint).or (if t.endpoint = some endpoint then some t else none) := by
  unfold homeTest
  rw [List.find?_append]
  by_cases same : t.endpoint = some endpoint <;> simp [same]

theorem homeTest_mem {tests : List UrlTest} {endpoint : String} {t : UrlTest}
    (home : homeTest tests endpoint = some t) : t ∈ tests ∧ t.endpoint = some endpoint := by
  have named := List.find?_some home
  exact ⟨List.mem_of_find?_eq_some home, by simpa using named⟩

theorem ridesEndpointRow_iff {probed : List (String × PingOutcome)} {tests : List UrlTest}
    {t : UrlTest} : ridesEndpointRow probed tests t = true ↔
      ∃ p ∈ probed, homeTest tests p.1 = some t := by
  simp [ridesEndpointRow]

theorem mem_strays {probed : List (String × PingOutcome)} {tests : List UrlTest} {t : UrlTest} :
    t ∈ strays probed tests ↔ t ∈ tests ∧ ¬ ridesEndpointRow probed tests t = true := by
  simp [strays]

section Packing

variable {shared : ProxySample} {probed : List (String × PingOutcome)} {tests : List UrlTest}
  {t : UrlTest}

theorem packedRow_serverIp (p : String × PingOutcome) :
    (packedRow shared tests p).serverIp = p.1 := by
  unfold packedRow
  split <;> rfl

theorem packedRow_tcp (p : String × PingOutcome) : (packedRow shared tests p).tcp = p.2.tcp := by
  unfold packedRow
  split <;> rfl

theorem packedRow_node (blank : shared.urltestNode = none) (p : String × PingOutcome) :
    (packedRow shared tests p).urltestNode = (homeTest tests p.1).map (·.node) := by
  unfold packedRow
  split
  next t home => rw [home]; rfl
  next alone => rw [alone]; exact blank

theorem takes_packedRow (blank : shared.urltestNode = none) (p : String × PingOutcome) :
    t.takes (packedRow shared tests p) = true ↔
      homeTest tests p.1 = none ∧ t.endpoint = some p.1 := by
  unfold UrlTest.takes
  rw [packedRow_node blank, packedRow_serverIp]
  simp

theorem packedRow_snoc (blank : shared.urltestNode = none) (p : String × PingOutcome) :
    packedRow shared (tests ++ [t]) p =
      if t.takes (packedRow shared tests p) then t.ride (packedRow shared tests p)
      else packedRow shared tests p := by
  by_cases free : homeTest tests p.1 = none ∧ t.endpoint = some p.1
  · rw [if_pos ((takes_packedRow blank p).mpr free)]
    unfold packedRow
    rw [homeTest_snoc, free.1, if_pos free.2]
    rfl
  · rw [if_neg fun takes => free ((takes_packedRow blank p).mp takes)]
    unfold packedRow
    rw [homeTest_snoc]
    cases home : homeTest tests p.1 with
    | some u => rfl
    | none => rw [if_neg fun named => free ⟨home, named⟩]; rfl

theorem ridesEndpointRow_snoc_self (fresh : t ∉ tests) :
    ridesEndpointRow probed (tests ++ [t]) t = true ↔
      ∃ p ∈ probed, homeTest tests p.1 = none ∧ t.endpoint = some p.1 := by
  rw [ridesEndpointRow_iff]
  constructor
  · rintro ⟨p, listed, home⟩
    have named := (homeTest_mem home).2
    rw [homeTest_snoc] at home
    cases earlier : homeTest tests p.1 with
    | none => exact ⟨p, listed, earlier, named⟩
    | some u =>
      rw [earlier] at home
      obtain rfl := Option.some.inj home
      exact absurd (homeTest_mem earlier).1 fresh
  · rintro ⟨p, listed, alone, named⟩
    exact ⟨p, listed, by rw [homeTest_snoc, alone, if_pos named]; rfl⟩

theorem ridesEndpointRow_snoc {u : UrlTest} (apart : u ≠ t) :
    ridesEndpointRow probed (tests ++ [t]) u = ridesEndpointRow probed tests u := by
  refine Bool.eq_iff_iff.mpr (ridesEndpointRow_iff.trans (Iff.trans ?_ ridesEndpointRow_iff.symm))
  refine exists_congr fun p => and_congr_right fun _ => ?_
  rw [homeTest_snoc]
  cases homeTest tests p.1 with
  | some v => exact Iff.rfl
  | none =>
    have other : ¬ t = u := fun same => apart same.symm
    by_cases named : t.endpoint = some p.1 <;> simp [named, other]

theorem strays_snoc (fresh : t ∉ tests) :
    strays probed (tests ++ [t]) =
      strays probed tests ++ if ridesEndpointRow probed (tests ++ [t]) t then [] else [t] := by
  have same : tests.filter (fun u => !ridesEndpointRow probed (tests ++ [t]) u) =
      tests.filter fun u => !ridesEndpointRow probed tests u := by
    refine List.filter_congr fun u listed => ?_
    have apart : u ≠ t := fun is => fresh (is ▸ listed)
    rw [ridesEndpointRow_snoc apart]
  unfold strays
  rw [List.filter_append, same]
  by_cases rides : ridesEndpointRow probed (tests ++ [t]) t = true
  · rw [if_pos rides, List.filter_cons_of_neg (by simp [rides]), List.filter_nil]
  · rw [if_neg rides, List.filter_cons_of_pos (by simp [rides]), List.filter_nil]

theorem not_takes_placeholder (dash : shared.serverIp = "-") (named : t.endpoint ≠ some "-")
    {r : ProxySample} (listed : r ∈ placeholder shared probed) : ¬ t.takes r = true := by
  unfold placeholder at listed
  split at listed
  · rw [List.mem_singleton.mp listed]
    simp [UrlTest.takes, dash, named]
  · cases listed

/-- Only endpoints' rows are taken, each by readings of its endpoint while it is free. -/
theorem takes_packedRows (blank : shared.urltestNode = none) (dash : shared.serverIp = "-")
    (named : t.endpoint ≠ some "-") :
    (∃ r ∈ packedRows shared probed tests, t.takes r = true) ↔
      ∃ p ∈ probed, homeTest tests p.1 = none ∧ t.endpoint = some p.1 := by
  unfold packedRows
  constructor
  · rintro ⟨r, listed, takes⟩
    rcases List.mem_append.mp listed with front | stray
    · rcases List.mem_append.mp front with own | mark
      · obtain ⟨p, probes, rfl⟩ := List.mem_map.mp own
        exact ⟨p, probes, (takes_packedRow blank p).mp takes⟩
      · exact absurd takes (not_takes_placeholder dash named mark)
    · obtain ⟨u, -, rfl⟩ := List.mem_map.mp stray
      cases takes
  · rintro ⟨p, probes, free⟩
    refine ⟨packedRow shared tests p, ?_, (takes_packedRow blank p).mpr free⟩
    have own := List.mem_map_of_mem (f := packedRow shared tests) probes
    exact List.mem_append_left _ (List.mem_append_left _ own)

theorem takes_pairwise (blank : shared.urltestNode = none) (dash : shared.serverIp = "-")
    (input : TickInput probed (tests ++ [t])) :
    (packedRows shared probed tests).Pairwise fun a b => ¬ (t.takes a = true ∧ t.takes b = true) := by
  have named : t.endpoint ≠ some "-" := input.tested t (by simp)
  have apart : probed.Pairwise fun p q => p.1 ≠ q.1 := List.pairwise_map.mp input.endpoints
  unfold packedRows
  rw [List.append_assoc, List.pairwise_append]
  have quiet : ∀ r ∈ placeholder shared probed ++
      (strays probed tests).map (·.readingOnlyRow shared), ¬ t.takes r = true := by
    intro r listed
    rcases List.mem_append.mp listed with mark | stray
    · exact not_takes_placeholder dash named mark
    · obtain ⟨u, -, rfl⟩ := List.mem_map.mp stray
      exact Bool.false_ne_true
  refine ⟨?_, ?_, ?_⟩
  · rw [List.pairwise_map]
    refine apart.imp fun {p q} distinct both => ?_
    have first := ((takes_packedRow blank p).mp both.1).2
    have second := ((takes_packedRow blank q).mp both.2).2
    exact distinct (Option.some.inj (first.symm.trans second))
  · exact List.pairwise_of_forall_mem_list fun a listed b _ both => quiet a listed both.1
  · exact fun a _ b listed both => quiet b listed both.2

/-- One reading more is placed as the packing has it. -/
theorem placeTest_packedRows (blank : shared.urltestNode = none) (dash : shared.serverIp = "-")
    (input : TickInput probed (tests ++ [t])) :
    placeTest shared (packedRows shared probed tests) t =
      packedRows shared probed (tests ++ [t]) := by
  have named : t.endpoint ≠ some "-" := input.tested t (by simp)
  have fresh : t ∉ tests := by
    intro listed
    have distinct := input.nodes
    rw [List.map_append, List.nodup_append] at distinct
    exact distinct.2.2 t.node (List.mem_map_of_mem listed) t.node (by simp) rfl
  have rows : ∀ xs : List (String × PingOutcome), xs.map (packedRow shared (tests ++ [t])) =
      (xs.map (packedRow shared tests)).map fun r => if t.takes r then t.ride r else r := by
    intro xs
    rw [List.map_map]
    exact List.map_congr_left fun p _ => packedRow_snoc blank p
  unfold placeTest
  split
  next home found =>
    have some_takes : ∃ r ∈ packedRows shared probed tests, t.takes r = true := by
      obtain ⟨inside, takes, -⟩ := List.findIdx?_eq_some_iff_getElem.mp found
      exact ⟨_, List.getElem_mem inside, takes⟩
    have rides := (ridesEndpointRow_snoc_self fresh).mpr
      ((takes_packedRows blank dash named).mp some_takes)
    rw [modify_findIdx_eq_map found (takes_pairwise blank dash input)]
    unfold packedRows
    rw [List.map_append, List.map_append, ← rows, strays_snoc fresh, if_pos rides, List.append_nil]
    congr 1
    · congr 1
      refine (List.map_congr_left fun r listed => ?_).trans (List.map_id _)
      exact if_neg (not_takes_placeholder dash named listed)
    · rw [List.map_map]
      exact List.map_congr_left fun u _ => rfl
  next missed =>
    have none_takes : ∀ r ∈ packedRows shared probed tests, ¬ t.takes r = true := by
      intro r listed takes
      have free := List.findIdx?_eq_none_iff.mp missed r listed
      rw [takes] at free
      cases free
    have alone : ¬ ridesEndpointRow probed (tests ++ [t]) t = true := by
      intro rides
      obtain ⟨r, listed, takes⟩ := (takes_packedRows blank dash named).mpr
        ((ridesEndpointRow_snoc_self fresh).mp rides)
      exact none_takes r listed takes
    have kept : (probed.map (packedRow shared (tests ++ [t]))) =
        probed.map (packedRow shared tests) := by
      refine List.map_congr_left fun p probes => ?_
      rw [packedRow_snoc blank p]
      refine if_neg (none_takes _ ?_)
      exact List.mem_append_left _ (List.mem_append_left _ (List.mem_map_of_mem probes))
    unfold packedRows
    rw [kept, strays_snoc fresh, if_neg alone, List.map_append, ← List.append_assoc]
    rfl

theorem foldl_placeTest (blank : shared.urltestNode = none) (dash : shared.serverIp = "-")
    (input : TickInput probed tests) :
    tests.foldl (placeTest shared) (packedRows shared probed []) =
      packedRows shared probed tests := by
  induction tests using List.reverseRecOn with
  | nil => rfl
  | append_singleton front t ih =>
    have before : TickInput probed front := by
      refine ⟨input.endpoints, ?_, input.named, fun u listed => input.tested u (by simp [listed])⟩
      have distinct := input.nodes
      rw [List.map_append, List.nodup_append] at distinct
      exact distinct.1
    rw [List.foldl_append, ih before]
    exact placeTest_packedRows blank dash input

end Packing

/-- The one element that has a property, filtered out. -/
theorem filter_eq_singleton {α : Type*} {p : α → Bool} {xs : List α} {x : α} (distinct : xs.Nodup)
    (listed : x ∈ xs) (only : ∀ y ∈ xs, p y = true ↔ y = x) : xs.filter p = [x] := by
  refine List.perm_singleton.mp ?_
  rw [List.perm_ext_iff_of_nodup (distinct.filter p) (List.nodup_singleton x)]
  intro y
  rw [List.mem_filter, List.mem_singleton]
  constructor
  · rintro ⟨mem, holds⟩
    exact (only y mem).mp holds
  · rintro rfl
    exact ⟨listed, (only y listed).mpr rfl⟩

theorem TickInput.probed_nodup {probed : List (String × PingOutcome)} {tests : List UrlTest}
    (input : TickInput probed tests) : probed.Nodup :=
  List.Nodup.of_map _ input.endpoints

theorem rawTcp_of_mem {probed : List (String × PingOutcome)} {tests : List UrlTest}
    (input : TickInput probed tests) {p : String × PingOutcome} (probes : p ∈ probed) :
    rawTcp probed p.1 = p.2.tcp := by
  have only : probed.filter (fun q => q.1 == p.1) = [p] := by
    refine filter_eq_singleton input.probed_nodup probes fun q mem => ?_
    rw [beq_iff_eq]
    exact ⟨fun same => input.endpoint_inj mem probes same, fun same => same ▸ rfl⟩
  unfold rawTcp
  rw [← List.head?_filter, only]
  rfl

theorem rawTcp_of_not_probed {probed : List (String × PingOutcome)} {endpoint : String}
    (unprobed : ∀ p ∈ probed, p.1 ≠ endpoint) : rawTcp probed endpoint = .skip := by
  have none_found : probed.find? (fun p => p.1 == endpoint) = none := by
    rw [List.find?_eq_none]
    exact fun p mem named => unprobed p mem (beq_iff_eq.mp named)
  unfold rawTcp
  rw [none_found]
  rfl

theorem PingOutcome.tcp_ne_skip (o : PingOutcome) : o.tcp ≠ .skip := by
  unfold PingOutcome.tcp
  split <;> decide

section Reading

variable {shared : ProxySample} {probed : List (String × PingOutcome)} {tests : List UrlTest}
  {t : UrlTest}

theorem packedRow_not_readingOnly (p : String × PingOutcome) :
    isReadingOnly (packedRow shared tests p) = false := by
  unfold isReadingOnly
  rw [packedRow_tcp, beq_eq_false_iff_ne.mpr p.2.tcp_ne_skip, Bool.false_and]

theorem readingOnlyRow_readingOnly (skip : shared.tcp = .skip) (u : UrlTest) :
    isReadingOnly (u.readingOnlyRow shared) = true := by
  simp [isReadingOnly, UrlTest.readingOnlyRow, UrlTest.ride, skip]

theorem filter_packedRows (q : ProxySample → Bool) :
    (packedRows shared probed tests).filter q =
      (probed.filter (q ∘ packedRow shared tests)).map (packedRow shared tests) ++
        (placeholder shared probed).filter q ++
        ((strays probed tests).filter (q ∘ (·.readingOnlyRow shared))).map
          (·.readingOnlyRow shared) := by
  unfold packedRows
  rw [List.filter_append, List.filter_append, List.filter_map, List.filter_map]

theorem filter_placeholder_none {q : ProxySample → Bool} (blank : q shared = false) :
    (placeholder shared probed).filter q = [] := by
  unfold placeholder
  split
  · rw [List.filter_cons_of_neg (by simp [blank]), List.filter_nil]
  · rfl

def measures (endpoint : String) (r : ProxySample) : Bool :=
  r.serverIp == endpoint && !isReadingOnly r

/-- The rows with a probed outcome for an endpoint are those of its probes. -/
theorem filter_measures (tests : List UrlTest) (skip : shared.tcp = .skip)
    (dash : shared.serverIp = "-") {endpoint : String} (named : endpoint ≠ "-") :
    (packedRows shared probed tests).filter (measures endpoint) =
      (probed.filter fun p => p.1 == endpoint).map (packedRow shared tests) := by
  have own : measures endpoint ∘ packedRow shared tests = fun p => p.1 == endpoint := by
    funext p
    rw [Function.comp_apply, measures, packedRow_not_readingOnly, packedRow_serverIp,
      Bool.not_false, Bool.and_true]
  have mark : measures endpoint shared = false := by
    rw [measures, dash, beq_eq_false_iff_ne.mpr named.symm, Bool.false_and]
  have none_stray :
      (strays probed tests).filter (measures endpoint ∘ (·.readingOnlyRow shared)) = [] := by
    rw [List.filter_eq_nil_iff]
    intro u _
    rw [Function.comp_apply, measures, readingOnlyRow_readingOnly skip, Bool.not_true,
      Bool.and_false]
    exact Bool.false_ne_true
  rw [filter_packedRows, own, filter_placeholder_none mark, none_stray, List.append_nil,
    List.map_nil, List.append_nil]

theorem measured_once (skip : shared.tcp = .skip) (dash : shared.serverIp = "-")
    (input : TickInput probed tests) {p : String × PingOutcome} (probes : p ∈ probed) :
    (packedRows shared probed tests).filter (measures p.1) = [packedRow shared tests p] := by
  have own : probed.filter (fun q => q.1 == p.1) = [p] := by
    refine filter_eq_singleton input.probed_nodup probes fun q mem => ?_
    rw [beq_iff_eq]
    exact ⟨fun same => input.endpoint_inj mem probes same, fun same => same ▸ rfl⟩
  rw [filter_measures tests skip dash (input.named p probes), own, List.map_singleton]

theorem unmeasured (tests : List UrlTest) (skip : shared.tcp = .skip)
    (dash : shared.serverIp = "-") {endpoint : String}
    (unprobed : ∀ p ∈ probed, p.1 ≠ endpoint) (named : endpoint ≠ "-") :
    (packedRows shared probed tests).filter (measures endpoint) = [] := by
  have none_own : probed.filter (fun p => p.1 == endpoint) = [] := by
    rw [List.filter_eq_nil_iff]
    intro p mem same
    exact unprobed p mem (beq_iff_eq.mp same)
  rw [filter_measures tests skip dash named, none_own, List.map_nil]

def carries (node : String) (r : ProxySample) : Bool := r.urltestNode == some node

/-- What stands on the row of a reading: the reading itself, beside its endpoint's raw verdict if
it rides the endpoint's row. -/
structure StandsOn (probed : List (String × PingOutcome)) (tests : List UrlTest) (t : UrlTest)
    (r : ProxySample) : Prop where
  node : r.urltestNode = some t.node
  ms : r.urltestMs = t.entry.map (·.ms)
  atUs : r.urltestAtUs = t.entry.map (·.atUs)
  absent : r.urltestAbsentSinceUs = t.absentSinceUs
  endpoint : r.serverIp = t.endpoint.getD "-"
  tcp : r.tcp = placedTcp probed tests t

theorem carries_packedRow_iff (blank : shared.urltestNode = none) (input : TickInput probed tests)
    (listed : t ∈ tests) (p : String × PingOutcome) :
    carries t.node (packedRow shared tests p) = true ↔ homeTest tests p.1 = some t := by
  unfold carries
  rw [packedRow_node blank, beq_iff_eq]
  constructor
  · intro named
    obtain ⟨u, home, same⟩ := Option.map_eq_some_iff.mp named
    rw [home, input.node_inj (homeTest_mem home).1 listed same]
  · intro home
    rw [home]
    rfl

theorem carries_reading_iff (input : TickInput probed tests) (listed : t ∈ tests) {u : UrlTest}
    (mem : u ∈ tests) : carries t.node (u.readingOnlyRow shared) = true ↔ u = t := by
  have same : carries t.node (u.readingOnlyRow shared) = true ↔ u.node = t.node := by
    simp [carries, UrlTest.readingOnlyRow, UrlTest.ride]
  exact same.trans ⟨fun named => input.node_inj mem listed named, fun is => is ▸ rfl⟩

theorem carried_once (blank : shared.urltestNode = none) (skip : shared.tcp = .skip)
    (input : TickInput probed tests) (listed : t ∈ tests) :
    ∃ r, (packedRows shared probed tests).filter (carries t.node) = [r] ∧
      StandsOn probed tests t r := by
  have mark : carries t.node shared = false := by
    rw [carries, blank]
    rfl
  by_cases rides : ridesEndpointRow probed tests t = true
  · obtain ⟨p, probes, home⟩ := ridesEndpointRow_iff.mp rides
    have named := (homeTest_mem home).2
    have own : probed.filter (carries t.node ∘ packedRow shared tests) = [p] := by
      refine filter_eq_singleton input.probed_nodup probes fun q mem => ?_
      rw [Function.comp_apply, carries_packedRow_iff blank input listed]
      constructor
      · intro other
        have named' := (homeTest_mem other).2
        exact input.endpoint_inj mem probes (Option.some.inj (named'.symm.trans named))
      · rintro rfl
        exact home
    have none_stray :
        (strays probed tests).filter (carries t.node ∘ (·.readingOnlyRow shared)) = [] := by
      rw [List.filter_eq_nil_iff]
      intro u stray holds
      obtain ⟨mem, alone⟩ := mem_strays.mp stray
      rw [(carries_reading_iff input listed mem).mp holds] at alone
      exact alone rides
    refine ⟨packedRow shared tests p, ?_, ?_⟩
    · rw [filter_packedRows, own, filter_placeholder_none mark, none_stray]
      rfl
    · have whole : packedRow shared tests p = t.ride (endpointRow shared p) := by
        unfold packedRow
        rw [home]
      rw [whole]
      refine ⟨rfl, rfl, rfl, rfl, by rw [named]; rfl, ?_⟩
      rw [placedTcp, if_pos rides, named, Option.getD_some, rawTcp_of_mem input probes]
      rfl
  · have own : probed.filter (carries t.node ∘ packedRow shared tests) = [] := by
      rw [List.filter_eq_nil_iff]
      intro q mem holds
      exact rides (ridesEndpointRow_iff.mpr
        ⟨q, mem, (carries_packedRow_iff blank input listed q).mp holds⟩)
    have one_stray :
        (strays probed tests).filter (carries t.node ∘ (·.readingOnlyRow shared)) = [t] := by
      have distinct : (strays probed tests).Nodup := (List.Nodup.of_map _ input.nodes).filter _
      refine filter_eq_singleton distinct (mem_strays.mpr ⟨listed, rides⟩) fun u stray => ?_
      exact carries_reading_iff input listed (mem_strays.mp stray).1
    refine ⟨t.readingOnlyRow shared, ?_, ?_⟩
    · rw [filter_packedRows, own, filter_placeholder_none mark, one_stray]
      rfl
    · refine ⟨rfl, rfl, rfl, rfl, rfl, ?_⟩
      rw [placedTcp, if_neg rides]
      exact skip

/-- Every row's reading is one of the tick's. -/
theorem carried_from (blank : shared.urltestNode = none) {r : ProxySample}
    (listed : r ∈ packedRows shared probed tests) {node : String}
    (named : r.urltestNode = some node) : ∃ t ∈ tests, t.node = node := by
  rcases List.mem_append.mp listed with front | stray
  · rcases List.mem_append.mp front with own | mark
    · obtain ⟨p, -, rfl⟩ := List.mem_map.mp own
      rw [packedRow_node blank] at named
      obtain ⟨u, home, same⟩ := Option.map_eq_some_iff.mp named
      exact ⟨u, (homeTest_mem home).1, same⟩
    · unfold placeholder at mark
      split at mark
      · rw [List.mem_singleton.mp mark, blank] at named
        cases named
      · cases mark
  · obtain ⟨u, alone, rfl⟩ := List.mem_map.mp stray
    exact ⟨u, (mem_strays.mp alone).1, Option.some.inj named⟩

theorem tickFacts_packedRows {r : ProxySample} (listed : r ∈ packedRows shared probed tests) :
    r.tickFacts = shared.tickFacts := by
  rcases List.mem_append.mp listed with front | stray
  · rcases List.mem_append.mp front with own | mark
    · obtain ⟨p, -, rfl⟩ := List.mem_map.mp own
      unfold packedRow
      split <;> rfl
    · unfold placeholder at mark
      split at mark
      · rw [List.mem_singleton.mp mark]
      · cases mark
  · obtain ⟨u, -, rfl⟩ := List.mem_map.mp stray
    rfl

def isPlaceholder (r : ProxySample) : Bool := r.serverIp == "-" && r.urltestNode.isNone

theorem placeholder_alone (blank : shared.urltestNode = none) (dash : shared.serverIp = "-")
    (input : TickInput probed tests) :
    (packedRows shared probed tests).filter isPlaceholder = placeholder shared probed := by
  have own : probed.filter (isPlaceholder ∘ packedRow shared tests) = [] := by
    rw [List.filter_eq_nil_iff]
    intro q mem holds
    rw [Function.comp_apply, isPlaceholder, packedRow_serverIp, Bool.and_eq_true, beq_iff_eq]
      at holds
    exact input.named q mem holds.1
  have none_stray :
      (strays probed tests).filter (isPlaceholder ∘ (·.readingOnlyRow shared)) = [] := by
    rw [List.filter_eq_nil_iff]
    intro u _
    rw [Function.comp_apply, isPlaceholder, Bool.and_eq_true]
    exact fun both => Bool.false_ne_true both.2
  have whole : (placeholder shared probed).filter isPlaceholder = placeholder shared probed := by
    unfold placeholder
    split
    · rw [List.filter_cons_of_pos (by simp [isPlaceholder, blank, dash]), List.filter_nil]
    · rfl
  rw [filter_packedRows, own, none_stray, whole]
  simp

theorem packedRows_ne_nil : packedRows shared probed tests ≠ [] := by
  unfold packedRows placeholder
  cases probed <;> simp

end Reading

/-- Before any reading the packing is the endpoints' rows, or the placeholder. -/
theorem packedRows_no_tests (shared : ProxySample) (probed : List (String × PingOutcome)) :
    packedRows shared probed [] =
      if (probed.map (endpointRow shared)).isEmpty then [shared]
      else probed.map (endpointRow shared) := by
  have plain : packedRow shared [] = endpointRow shared := rfl
  unfold packedRows placeholder strays
  rw [plain]
  cases probed <;> simp

theorem buildProxySamples_perm {tsUs : Int} {tunCode : Option Nat} {selector : Option String}
    {stall : StallReading} {probed : List (String × PingOutcome)} {tests : List UrlTest}
    (input : TickInput probed tests) :
    (buildProxySamples tsUs tunCode selector stall probed tests).Perm
      (packedRows (sharedRow tsUs tunCode selector stall) probed tests) := by
  have placed : tests.foldl (placeTest (sharedRow tsUs tunCode selector stall))
      (packedRows (sharedRow tsUs tunCode selector stall) probed []) =
        packedRows (sharedRow tsUs tunCode selector stall) probed tests :=
    foldl_placeTest rfl rfl input
  rw [packedRows_no_tests] at placed
  unfold buildProxySamples
  exact (List.mergeSort_perm ..).trans (placed ▸ List.Perm.refl _)

theorem filter_of_perm {α : Type*} {xs ys : List α} {p : α → Bool} {y : α} (perm : xs.Perm ys)
    (one : ys.filter p = [y]) : xs.filter p = [y] :=
  List.perm_singleton.mp (one ▸ perm.filter p)

theorem find?_of_filter {α : Type*} {xs : List α} {p : α → Bool} {x : α}
    (one : xs.filter p = [x]) : xs.find? p = some x := by
  rw [← List.head?_filter, one]
  rfl

/-- Rows of one timestamp are one tick. -/
theorem tickRows_of_same {rows : List ProxySample} {tsUs : Int} (some_row : rows ≠ [])
    (same : ∀ r ∈ rows, r.tsUs = tsUs) : tickRows rows = [rows] := by
  refine List.splitBy_of_isChain some_row (List.Pairwise.isChain ?_)
  refine List.pairwise_of_forall_mem_list fun a ha b hb => ?_
  rw [beq_iff_eq, same a ha, same b hb]

theorem selectedUrltest_eq_some_iff {r : ProxySample} {s : SelectedUrlTest} :
    selectedUrltest r = some s ↔
      ∃ node, r.urltestNode = some node ∧ r.selector = some node ∧
        s = ⟨node, r.serverIp, r.tcp, r.urltestAbsentSinceUs⟩ := by
  unfold selectedUrltest
  cases r.urltestNode with
  | none => simp
  | some node =>
    by_cases chosen : r.selector = some node
    · simp [chosen, eq_comm]
    · simp only [if_neg chosen, reduceCtorEq, Option.some.injEq, exists_eq_left', false_iff]
      exact fun both => chosen both.1

/-- A tick's rows agree with the tick: what each of its measurements stands on, and what the
conditions' readers make of the rows. -/
structure RowsAgree (tsUs : Int) (tunCode : Option Nat) (selector : Option String)
    (stall : StallReading) (probed : List (String × PingOutcome)) (tests : List UrlTest)
    (rows : List ProxySample) : Prop where
  endpointOnce : ∀ p ∈ probed, ∃ r, rows.filter (measures p.1) = [r] ∧ r.tcp = p.2.tcp ∧
    r.rttMs = p.2.rttMs
  testOnce : ∀ t ∈ tests, ∃ r, rows.filter (carries t.node) = [r] ∧ StandsOn probed tests t r
  facts : ∀ r ∈ rows, r.tickFacts = ⟨tsUs, tunCode, selector, stall.direct.map (·.alive),
    stall.direct.map (·.ageS), stall.tun.map (·.alive), stall.tun.map (·.ageS)⟩
  placeholder : rows.filter isPlaceholder =
    if probed = [] then [sharedRow tsUs tunCode selector stall] else []
  mapped : ∀ t ∈ tests, ∀ endpoint, t.endpoint = some endpoint →
    nodeEndpoint rows t.node = some (endpoint, rawTcp probed endpoint)
  selected : selectedUrltests rows =
    [(tsUs, (tests.find? fun t => selector == some t.node).map fun t =>
      ⟨t.node, t.endpoint.getD "-", placedTcp probed tests t, t.absentSinceUs⟩)]
  measured : ∀ r ∈ rows, r.tcp ≠ .skip → isReadingOnly r = false

theorem nodeEndpoint_of_rows {rows : List ProxySample} {probed : List (String × PingOutcome)}
    {tests : List UrlTest} {t : UrlTest} {r : ProxySample} {endpoint : String}
    (one : rows.filter (carries t.node) = [r]) (stands : StandsOn probed tests t r)
    (named : t.endpoint = some endpoint) (apart : endpoint ≠ "-")
    (raw : ((rows.find? (measures endpoint)).map (·.tcp)).getD .skip = rawTcp probed endpoint) :
    nodeEndpoint rows t.node = some (endpoint, rawTcp probed endpoint) := by
  have reading : rows.find? (fun r => r.urltestNode == some t.node) = some r :=
    find?_of_filter one
  have server : r.serverIp = endpoint := by rw [stands.endpoint, named]; rfl
  have search : rows.find? (fun r => r.serverIp == endpoint && !isReadingOnly r) =
      rows.find? (measures endpoint) := rfl
  unfold nodeEndpoint
  rw [reading]
  simp only [Option.bind_eq_bind, Option.bind_some, server, if_neg apart, search, raw]
  split
  next => rfl
  next full =>
    have rides : ridesEndpointRow probed tests t = true := by
      by_contra alone
      have skip := stands.tcp
      rw [placedTcp, if_neg alone] at skip
      rw [isReadingOnly, skip, stands.node] at full
      exact full rfl
    rw [stands.tcp, placedTcp, if_pos rides, named]
    rfl

/-- The selected node's reading is found whichever row it stands on. -/
theorem selected_of_rows {rows : List ProxySample} {probed : List (String × PingOutcome)}
    {tests : List UrlTest} {selector : Option String}
    (selectors : ∀ r ∈ rows, r.selector = selector)
    (named : ∀ r ∈ rows, ∀ node, r.urltestNode = some node → ∃ t ∈ tests, t.node = node)
    (carried : ∀ t ∈ tests, ∃ r, rows.filter (carries t.node) = [r] ∧
      StandsOn probed tests t r) :
    rows.findSome? selectedUrltest =
      (tests.find? fun t => selector == some t.node).map fun t =>
        ⟨t.node, t.endpoint.getD "-", placedTcp probed tests t, t.absentSinceUs⟩ := by
  cases chosen : tests.find? fun t => selector == some t.node with
  | none =>
    refine List.findSome?_eq_none_iff.mpr fun r listed => ?_
    rw [Option.eq_none_iff_forall_ne_some]
    intro s reads
    obtain ⟨node, reading, picks, -⟩ := selectedUrltest_eq_some_iff.mp reads
    obtain ⟨t, mem, rfl⟩ := named r listed node reading
    refine List.find?_eq_none.mp chosen t mem ?_
    rw [beq_iff_eq, ← selectors r listed, picks]
  | some t =>
    have picks : selector = some t.node := by
      have holds := List.find?_some chosen
      simpa using holds
    obtain ⟨r, one, stands⟩ := carried t (List.mem_of_find?_eq_some chosen)
    have listed : r ∈ rows := List.mem_of_mem_filter (one ▸ List.mem_singleton_self r)
    have here : selectedUrltest r = some ⟨t.node, r.serverIp, r.tcp, r.urltestAbsentSinceUs⟩ :=
      selectedUrltest_eq_some_iff.mpr
        ⟨t.node, stands.node, (selectors r listed).trans picks, rfl⟩
    cases found : rows.findSome? selectedUrltest with
    | none =>
      have silent := List.findSome?_eq_none_iff.mp found r listed
      rw [here] at silent
      cases silent
    | some s =>
      obtain ⟨r', listed', reads⟩ := List.exists_of_findSome?_eq_some found
      obtain ⟨node, reading, picks', rfl⟩ := selectedUrltest_eq_some_iff.mp reads
      obtain rfl : t.node = node :=
        Option.some.inj (picks.symm.trans ((selectors r' listed').symm.trans picks'))
      have carrier : r' ∈ rows.filter (carries t.node) :=
        List.mem_filter.mpr ⟨listed', beq_iff_eq.mpr reading⟩
      rw [one, List.mem_singleton] at carrier
      subst carrier
      rw [stands.endpoint, stands.tcp, stands.absent]
      rfl

/-- Written and read back in any order, the rows of a tick agree with it. -/
theorem proxy_rows_agree {tsUs : Int} {tunCode : Option Nat} {selector : Option String}
    {stall : StallReading} {probed : List (String × PingOutcome)} {tests : List UrlTest}
    {rows : List ProxySample} (input : TickInput probed tests)
    (read : rows.Perm (buildProxySamples tsUs tunCode selector stall probed tests)) :
    RowsAgree tsUs tunCode selector stall probed tests rows := by
  have perm := read.trans (buildProxySamples_perm input)
  have facts : ∀ r ∈ rows, r.tickFacts = (sharedRow tsUs tunCode selector stall).tickFacts :=
    fun r listed => tickFacts_packedRows (perm.subset listed)
  have carried : ∀ t ∈ tests, ∃ r, rows.filter (carries t.node) = [r] ∧
      StandsOn probed tests t r := by
    intro t listed
    obtain ⟨r, one, stands⟩ : ∃ r,
        (packedRows (sharedRow tsUs tunCode selector stall) probed tests).filter
          (carries t.node) = [r] ∧ StandsOn probed tests t r := carried_once rfl rfl input listed
    exact ⟨r, filter_of_perm perm one, stands⟩
  refine ⟨?_, carried, facts, ?_, ?_, ?_, ?_⟩
  · intro p probes
    have one := filter_of_perm perm (measured_once rfl rfl input probes)
    exact ⟨_, one, packedRow_tcp p, by unfold packedRow; split <;> rfl⟩
  · have mark := (perm.filter isPlaceholder).trans
      (.of_eq (placeholder_alone rfl rfl input))
    unfold placeholder at mark
    cases probed with
    | nil => exact List.perm_singleton.mp mark
    | cons p rest => exact List.perm_nil.mp mark
  · intro t listed endpoint named
    obtain ⟨r, one, stands⟩ := carried t listed
    have apart : endpoint ≠ "-" := fun is => input.tested t listed (is ▸ named)
    refine nodeEndpoint_of_rows one stands named apart ?_
    by_cases probes : ∃ p ∈ probed, p.1 = endpoint
    · obtain ⟨p, mem, rfl⟩ := probes
      rw [find?_of_filter (filter_of_perm perm (measured_once rfl rfl input mem)),
        rawTcp_of_mem input mem]
      exact packedRow_tcp p
    · have unprobed : ∀ p ∈ probed, p.1 ≠ endpoint := fun p mem is => probes ⟨p, mem, is⟩
      have none_read : rows.filter (measures endpoint) = [] :=
        List.perm_nil.mp ((perm.filter _).trans
          (.of_eq (unmeasured tests rfl rfl unprobed apart)))
      rw [← List.head?_filter, none_read, rawTcp_of_not_probed unprobed]
      rfl
  · have some_row : rows ≠ [] := fun empty => packedRows_ne_nil (List.nil_perm.mp (empty ▸ perm))
    have times : ∀ r ∈ rows, r.tsUs = tsUs :=
      fun r listed => congrArg ProxyTickFacts.tsUs (facts r listed)
    have selectors : ∀ r ∈ rows, r.selector = selector :=
      fun r listed => congrArg ProxyTickFacts.selector (facts r listed)
    have named : ∀ r ∈ rows, ∀ node, r.urltestNode = some node → ∃ t ∈ tests, t.node = node :=
      fun r listed node reading => carried_from rfl (perm.subset listed) reading
    unfold selectedUrltests
    rw [tickRows_of_same some_row times, ← selected_of_rows selectors named carried]
    obtain ⟨first, rest, rfl⟩ := List.exists_cons_of_ne_nil some_row
    rw [List.filterMap_cons, List.filterMap_nil, List.head?_cons, Option.map_some,
      times first (by simp)]
  · intro r listed full
    rw [isReadingOnly, beq_eq_false_iff_ne.mpr full, Bool.false_and]

/-- Two nodes on one endpoint and one node without any, the first of them selected. -/
def sharedEndpointTests : List UrlTest :=
  [⟨"node-a", some "1.1.1.1:443", some ⟨1000, 202⟩, none⟩,
    ⟨"node-b", some "1.1.1.1:443", none, some 5⟩, ⟨"stray", none, some ⟨900, 5⟩, none⟩]

theorem proxy_rows_agree_sharedEndpoint :
    RowsAgree 7 (some 204) (some "node-a") ⟨none, none⟩ [("1.1.1.1:443", ⟨true, none⟩)]
      sharedEndpointTests
      (buildProxySamples 7 (some 204) (some "node-a") ⟨none, none⟩ [("1.1.1.1:443", ⟨true, none⟩)]
        sharedEndpointTests).reverse :=
  proxy_rows_agree ⟨by decide, by decide, by decide, by decide⟩ (List.reverse_perm _)

/-- A reading whose endpoint is named like the placeholder takes it, and reads as unmapped. -/
theorem placeholder_taken_by_dash :
    buildProxySamples 7 none none ⟨none, none⟩ [] [⟨"node-a", some "-", none, none⟩] =
        [⟨7, "-", .skip, none, none, none, none, none, none, none, none, none, some "node-a",
          none⟩] ∧
      ¬ RowsAgree 7 none none ⟨none, none⟩ [] [⟨"node-a", some "-", none, none⟩]
        (buildProxySamples 7 none none ⟨none, none⟩ [] [⟨"node-a", some "-", none, none⟩]) := by
  have rows : buildProxySamples 7 none none ⟨none, none⟩ [] [⟨"node-a", some "-", none, none⟩] =
      [⟨7, "-", .skip, none, none, none, none, none, none, none, none, none, some "node-a",
        none⟩] :=
    List.mergeSort_singleton _
  refine ⟨rows, fun agree => ?_⟩
  have mark := agree.placeholder
  rw [rows] at mark
  cases mark

end NetObserver
