import NetObserver.GroupTotals
import NetObserver.SampleWrites
import NetObserver.ScanReport
import NetObserver.StdText

/-! The live flows of the proxy folded into one tick: a row for each key, with what the flows of
that key add up to. -/

namespace NetObserver

open Machine

/-- One live flow, as the proxy's API reports it. -/
structure LiveConnection where
  host : Option String
  dstIp : Option String
  dstPort : Option Nat
  process : Option String
  network : String
  chain : Option String
  upload : Nat
  download : Nat

/-- No fact of the flow is an empty name, or the dash that stands for none. -/
def LiveConnection.Plain (c : LiveConnection) : Prop :=
  ∀ fact ∈ [c.host, c.dstIp, c.process], fact ≠ some "" ∧ fact ≠ some "-"

/-- The listeners and the outbounds that the proxy's rendered config names. -/
structure OwnListeners where
  tunAddr : Option String
  dnsPin : Option String
  tunIf : Option String
  directIf : Option String
  directTags : List String
  blockTags : List String

namespace IpAddr

/-- An IPv4-mapped address as its IPv4. -/
def toCanonical : IpAddr → IpAddr
  | v4 o => v4 o
  | v6 s =>
    match s.toList with
    | [0, 0, 0, 0, 0, 0xffff, high, low] =>
      let octets := [high, low].flatMap fun w => [w.toNat / 256, w.toNat % 256]
      v4 (Vector.ofFn fun i => UInt8.ofNat (octets.getD i 0))
    | _ => v6 s

/-- `10/8`, `172.16/12`, `192.168/16`, or `fc00::/7`. -/
def isPrivate : IpAddr → Bool
  | v4 o =>
    match o.toList with
    | a :: b :: _ =>
      a == 10 || (a == 172 && decide (16 ≤ b) && decide (b ≤ 31)) || (a == 192 && b == 168)
    | _ => false
  | v6 s => s.toList.head?.any fun w => w &&& 0xfe00 == 0xfc00

def parseTrimmed (s : String) : Option IpAddr := parse (String.ofList (StdText.trim s.toList))

end IpAddr

def classifyScope (dstIp tunAddr dnsPin : Option String) : ConnectionScope :=
  match IpAddr.parseTrimmed (dstIp.getD "") with
  | none => .external
  | some ip =>
    let ip := ip.toCanonical
    let isListener (own : Option String) : Bool :=
      (own.bind IpAddr.parseTrimmed).any fun a => a.toCanonical == ip
    if isListener tunAddr || isListener dnsPin || ip.isLoopback || ip.isLinkLocal then .internal
    else if ip.isPrivate then .lan
    else .external

namespace OwnListeners

variable (listeners : OwnListeners)

def classify (dstIp : Option String) : ConnectionScope :=
  classifyScope dstIp listeners.tunAddr listeners.dnsPin

/-- The interface that a flow left through, off the outbound that carried it. -/
def ifaceForChain (chain : Option String) : Option String :=
  match chain with
  | none => none
  | some chain =>
    if chain.isEmpty then none
    else if listeners.blockTags.contains chain then some "blocked"
    else if listeners.directTags.contains chain then listeners.directIf
    else listeners.tunIf

/-- The row of a flow on its own. -/
def rowOf (c : LiveConnection) : ConnectionRow where
  host := c.host
  dstIp := c.dstIp
  dstPort := c.dstPort
  process := c.process
  network := c.network
  chain := c.chain
  count := 1
  upload := c.upload
  download := c.download
  scope := listeners.classify c.dstIp
  iface := listeners.ifaceForChain c.chain

end OwnListeners

namespace ConnectionRow

/-- What `same_key` compares. -/
structure Key where
  host : Option String
  dstIp : Option String
  dstPort : Option Nat
  process : Option String
  network : String
  chain : Option String
  scope : ConnectionScope
deriving DecidableEq

def Plain (r : ConnectionRow) : Prop :=
  ∀ fact ∈ [r.host, r.dstIp, r.process], fact ≠ some "" ∧ fact ≠ some "-"

/-- No fact of the row is an empty name. -/
def Named (r : ConnectionRow) : Prop := ∀ fact ∈ [r.host, r.dstIp, r.process], fact ≠ some ""

theorem Plain.named {r : ConnectionRow} (plain : r.Plain) : r.Named :=
  fun fact mem => (plain fact mem).1

def key (r : ConnectionRow) : Key :=
  ⟨r.host, r.dstIp, r.dstPort, r.process, r.network, r.chain, r.scope⟩

/-- A flow more in a row. -/
def join (r new : ConnectionRow) : ConnectionRow :=
  { r with
    count := satAddU32 r.count new.count
    upload := satAddU64 r.upload new.upload
    download := satAddU64 r.download new.download }

end ConnectionRow

def buildConnectionsSample (tsUs : Int) (connections : Option (List LiveConnection))
    (listeners : OwnListeners) : ConnectionsSample :=
  match connections with
  | none => ⟨tsUs, .skip, []⟩
  | some connections =>
    ⟨tsUs, .ok,
      (connections.map listeners.rowOf).foldl (Keyed.upsert ConnectionRow.key ConnectionRow.join) []⟩

/-- The three figures of a row that add up. -/
inductive FlowFigure where
  | count
  | upload
  | download
deriving DecidableEq

namespace FlowFigure

def column : FlowFigure → String
  | count => "count"
  | upload => "upload"
  | download => "download"

def most : FlowFigure → Nat
  | count => u32Max
  | upload => u64Max
  | download => u64Max

def ofRow : FlowFigure → ConnectionRow → Nat
  | count => ConnectionRow.count
  | upload => ConnectionRow.upload
  | download => ConnectionRow.download

/-- What one flow is worth. -/
def ofFlow : FlowFigure → LiveConnection → Nat
  | count => fun _ => 1
  | upload => LiveConnection.upload
  | download => LiveConnection.download

variable (figure : FlowFigure)

/-- The total over a list of flows. -/
def ofFlows (flows : List LiveConnection) : Nat := (flows.map figure.ofFlow).sum

/-- The total over the rows of a tick. -/
def ofRows (rows : List ConnectionRow) : Nat := (rows.map figure.ofRow).sum

theorem ofRow_rowOf (listeners : OwnListeners) (c : LiveConnection) :
    figure.ofRow (listeners.rowOf c) = figure.ofFlow c := by
  cases figure <;> rfl

theorem ofRow_join {r new : ConnectionRow} (fits : figure.ofRow r + figure.ofRow new ≤ figure.most) :
    figure.ofRow (r.join new) = figure.ofRow r + figure.ofRow new := by
  cases figure <;> exact Nat.min_eq_left fits

end FlowFigure

section

variable {connections : Option (List LiveConnection)} {figure : FlowFigure}

theorem ConnectionRow.key_join (r new : ConnectionRow) (same : r.key = new.key) :
    (r.join new).key = new.key := same

theorem ConnectionRow.count_join_pos {r new : ConnectionRow} (counted : 1 ≤ r.count) :
    1 ≤ (r.join new).count := by
  change 1 ≤ min (r.count + new.count) u32Max
  simp only [u32Max]
  omega

/-- Of each scope the rows hold what its flows add up to: the fold loses nothing, and counts
nothing twice. -/
theorem buildConnectionsSample_figure (tsUs : Int) (listeners : OwnListeners)
    (p : ConnectionScope → Bool)
    (fits : figure.ofFlows (connections.getD []) ≤ figure.most) :
    figure.ofRows ((buildConnectionsSample tsUs connections listeners).rows.filter fun r =>
        p r.scope) =
      figure.ofFlows ((connections.getD []).filter fun c => p (listeners.classify c.dstIp)) := by
  cases connections with
  | none => rfl
  | some connections =>
    have worth : (connections.map listeners.rowOf).map figure.ofRow =
        connections.map figure.ofFlow := by
      rw [List.map_map]
      exact List.map_congr_left fun c _ => figure.ofRow_rowOf listeners c
    have adds : ∀ r new : ConnectionRow, r.key = new.key →
        figure.ofRow r + figure.ofRow new ≤ figure.most →
        figure.ofRow (r.join new) = figure.ofRow r + figure.ofRow new :=
      fun _ _ _ room => figure.ofRow_join room
    have within : (((connections.map listeners.rowOf).filter fun r => p r.scope).map
        figure.ofRow).sum ≤ figure.most := by
      refine le_trans (List.Sublist.sum_le_sum (List.filter_sublist.map _) fun _ _ => Nat.zero_le _) ?_
      rw [worth]
      exact fits
    have kept := Keyed.sum_filter_foldl_upsert (fun k => p k.scope) ConnectionRow.key_join adds
      within
    have told : ((connections.map listeners.rowOf).filter fun r => p r.scope).map figure.ofRow =
        (connections.filter fun c => p (listeners.classify c.dstIp)).map figure.ofFlow := by
      have scopes : (fun r : ConnectionRow => p r.scope) ∘ listeners.rowOf =
          fun c => p (listeners.classify c.dstIp) := by
        funext c
        simp only [Function.comp_apply, OwnListeners.rowOf]
      rw [List.filter_map, List.map_map, scopes]
      exact List.map_congr_left fun c _ => figure.ofRow_rowOf listeners c
    dsimp only [ConnectionRow.key] at kept
    rw [told] at kept
    unfold FlowFigure.ofRows FlowFigure.ofFlows buildConnectionsSample
    exact kept

/-- A row has the facts of its flows, and counts one of them at least. -/
theorem buildConnectionsSample_rows (tsUs : Int) (listeners : OwnListeners)
    (plain : ∀ c ∈ connections.getD [], c.Plain) :
    ∀ r ∈ (buildConnectionsSample tsUs connections listeners).rows, r.Plain ∧ 1 ≤ r.count := by
  cases connections with
  | none =>
    intro r mem
    cases mem
  | some connections =>
    refine Keyed.forall_foldl_upsert (P := fun r : ConnectionRow => r.Plain ∧ 1 ≤ r.count) (fun r mem => ?_)
      fun r new held => ?_
    · obtain ⟨c, listed, rfl⟩ := List.mem_map.mp mem
      exact ⟨plain c listed, Nat.le_refl 1⟩
    · exact ⟨held.1, ConnectionRow.count_join_pos held.2⟩

end

end NetObserver
