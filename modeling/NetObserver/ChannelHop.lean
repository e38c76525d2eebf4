import NetObserver.ChangeBasis
import NetObserver.WifiConditions

/-! The roam condition's channel axis over runs of links and Wi-Fi readings: which changes of the
channel between two links it sees. -/

namespace NetObserver

open BoundedBuffer

/-- The channel the window gives a link: its newest reading of a channel at or before it. -/
def placementAt (w : RecentWindow) (l : LinkSample) : Option (String × Int × Int) :=
  (w.wifiAtOrBefore l.tsUs).bind WifiSample.placement

/-- Both links have a fully measured channel, and they differ. -/
def ChannelMoved (w : RecentWindow) (prev last : LinkSample) : Prop :=
  ∃ before now, placementAt w prev = some before ∧ placementAt w last = some now ∧ before ≠ now

/-- A Wi-Fi link whose access point is not readable, under one address. -/
structure OnAddress (mac : String) (l : LinkSample) : Prop where
  medium : onWifi l = true
  hidden : l.bssid = none
  address : l.ifMac = some mac

theorem channelHop_isSome_iff (w : RecentWindow) (last prev : LinkSample) :
    (channelHop w last prev).isSome ↔ ChannelMoved w prev last := by
  unfold channelHop ChannelMoved placementAt
  cases w.wifiAtOrBefore last.tsUs with
  | none => simp
  | some newW =>
    cases w.wifiAtOrBefore prev.tsUs with
    | none => simp
    | some oldW =>
      cases now : newW.placement with
      | none => simp [now]
      | some new =>
        cases before : oldW.placement with
        | none => simp [now, before]
        | some old =>
          by_cases same : old = new
          · simp [now, before, same]
          · have differ : (old.1, old.2.1, old.2.2) ≠ (new.1, new.2.1, new.2.2) := same
            simp [now, before, same]

theorem wifiIfMac_of_onAddress {mac : String} {l : LinkSample} (on : OnAddress mac l) :
    wifiIfMac l = some mac := by
  unfold wifiIfMac
  rw [if_pos on.medium, on.address]

/-- Between two such links the condition has the channel alone to go by. -/
theorem roam_isSome_iff {w : RecentWindow} {mac : String} {last prev : LinkSample}
    {rest : List LinkSample} (links : w.links = last :: prev :: rest) (onLast : OnAddress mac last)
    (onPrev : OnAddress mac prev) : (roam.eval w).isSome ↔ ChannelMoved w prev last := by
  have newest : w.lastLink = some last := by
    rw [RecentWindow.lastLink_eq_head]
    exact congrArg List.head? links
  have basis : measuredPredecessor w (w.recentLink gwChangeScan) (fun l => (wifiIfMac l).isSome) =
      some (prev, .contiguous) := by
    have recent : (w.recentLink gwChangeScan).drop 1 = prev :: rest.take 62 := by
      change (w.links.take gwChangeScan).drop 1 = _
      rw [links]
      rfl
    unfold measuredPredecessor
    rw [recent, List.find?_cons_of_pos (by simp [wifiIfMac_of_onAddress onPrev])]
  have hop : bssidHop w (w.recentLink gwChangeScan) last = none := by
    simp [bssidHop, onLast.hidden]
  have address : linkAddress w (w.recentLink gwChangeScan) last = (.kept prev, some .contiguous) := by
    simp [linkAddress, wifiIfMac_of_onAddress onLast, basis, onPrev.address]
  rw [← channelHop_isSome_iff]
  simp only [roam, newest, hop, address, Option.bind_eq_bind, Option.bind_some]
  cases channel : channelHop w last prev with
  | none => simp
  | some note => simp

/-- The window after these samples were pushed, with no clear. -/
def windowAfter (history : List Sample) : RecentWindow :=
  runWindow (RecentWindow.new windowCap) (history.map .push)

theorem windowAfter_snoc (history : List Sample) (s : Sample) :
    windowAfter (history ++ [s]) = (windowAfter history).push s := by
  unfold windowAfter runWindow
  rw [List.map_append, List.foldl_append]
  rfl

theorem windowAfter_items (history : List Sample) :
    (windowAfter history).buf.cap = windowCap ∧
      (windowAfter history).buf.items = evict windowCap history := by
  induction history using List.reverseRecOn with
  | nil => exact ⟨rfl, rfl⟩
  | append_singleton history s ih =>
    rw [windowAfter_snoc]
    refine ⟨ih.1, ?_⟩
    change evict (windowAfter history).buf.cap ((windowAfter history).buf.items ++ [s]) = _
    rw [ih.1, ih.2, evict_evict_append]

/-- The newest samples are all there as long as they fit. -/
theorem evict_append_of_fits {α : Type*} {cap : Nat} (before : List α) {newest : List α}
    (fits : newest.length ≤ cap) : ∃ kept, evict cap (before ++ newest) = kept ++ newest := by
  rw [evict_eq_drop]
  refine ⟨before.drop ((before ++ newest).length - cap), ?_⟩
  have inFront : (before ++ newest).length - cap ≤ before.length := by
    rw [List.length_append]
    omega
  exact List.drop_append_of_le_length inFront

/-- Two links with different fully measured channels in the window a history leads to, and no
link with one between them. -/
structure HopPair (history : List Sample) where
  before : List Sample
  left : LinkSample
  mid : List Sample
  right : LinkSample
  after : List Sample
  split : history = before ++ .link left :: (mid ++ .link right :: after)
  retained : (Sample.link left :: (mid ++ .link right :: after)).length ≤ windowCap
  moved : ChannelMoved (windowAfter history) left right
  between : ∀ l ∈ linksOf mid, placementAt (windowAfter history) l = none

namespace HopPair

variable {history : List Sample}

/-- A link behind the left one, up to the right one, with what was pushed between. -/
structure Tick (hop : HopPair history) where
  seen : List Sample
  link : LinkSample
  later : List Sample
  split : hop.mid ++ [.link hop.right] = seen ++ .link link :: later

namespace Tick

variable {hop : HopPair history}

/-- What had been pushed when the tick was evaluated. -/
def past (t : hop.Tick) : List Sample :=
  hop.before ++ .link hop.left :: (t.seen ++ [.link t.link])

/-- The link right before the tick. -/
def prev (t : hop.Tick) : LinkSample := ((linksOf t.seen).getLast?).getD hop.left

theorem past_prefix (t : hop.Tick) : history = t.past ++ (t.later ++ hop.after) := by
  have split := hop.split
  have whole : hop.mid ++ Sample.link hop.right :: hop.after =
      t.seen ++ Sample.link t.link :: (t.later ++ hop.after) := by
    rw [List.append_cons, t.split]
    simp
  rw [whole] at split
  simpa [past] using split

theorem links_past (t : hop.Tick) :
    ∃ rest, (windowAfter t.past).links = t.link :: t.prev :: rest := by
  have fits : (Sample.link hop.left :: (t.seen ++ [.link t.link])).length ≤ windowCap := by
    have whole := congrArg List.length t.split
    have retained := hop.retained
    simp only [List.length_append, List.length_cons, List.length_nil] at whole retained ⊢
    omega
  obtain ⟨kept, items⟩ := evict_append_of_fits hop.before fits
  have links : (windowAfter t.past).links =
      t.link :: ((linksOf t.seen).reverse ++ hop.left :: (linksOf kept).reverse) := by
    unfold RecentWindow.links
    rw [links_newestFirst, (windowAfter_items t.past).2]
    unfold past
    rw [items, linksOf_append]
    simp [linksOf, Sample.link?]
  rw [links, prev]
  rcases List.eq_nil_or_concat (linksOf t.seen) with none | ⟨earlier, newest, some_links⟩
  · rw [none]
    exact ⟨_, rfl⟩
  · rw [some_links]
    simp

end Tick

/-- The condition fires on a tick behind the left link, up to the right one. -/
def Fired (hop : HopPair history) : Prop := ∃ t : hop.Tick, (roam.eval (windowAfter t.past)).isSome

/-- When a tick behind the left link was evaluated, it and the link right before it both had
their channel in full, and different ones. -/
def SeenAtOnce (hop : HopPair history) : Prop :=
  ∃ t : hop.Tick, ChannelMoved (windowAfter t.past) t.prev t.link

end HopPair

/-- What follows a link is stamped later if it is a reading, and not earlier if it is a link. -/
def Succeeds (s t : Sample) : Prop :=
  ∀ l, s = .link l →
    (∀ r, t = .wifi r → l.tsUs < r.tsUs) ∧ ∀ k, t = .link k → l.tsUs ≤ k.tsUs

/-- The samples were pushed in the order of their stamps, as far as links are concerned. -/
def InOrder (history : List Sample) : Prop := history.Pairwise Succeeds

/-- Later readings change nothing of a lookup, and an eviction nothing of what it finds. -/
theorem wifiAtOrBefore_past {past more : List Sample} {ts : Int} {r : WifiSample}
    (late : ∀ s ∈ more, ∀ reading, s = .wifi reading → ts < reading.tsUs)
    (found : (windowAfter (past ++ more)).wifiAtOrBefore ts = some r) :
    (windowAfter past).wifiAtOrBefore ts = some r := by
  unfold RecentWindow.wifiAtOrBefore RecentWindow.newestFirst at found ⊢
  rw [(windowAfter_items _).2, evict_eq_drop] at found ⊢
  obtain ⟨gone, goneIs⟩ : ∃ gone, gone = (past ++ more).length - windowCap := ⟨_, rfl⟩
  rw [← goneIs, List.drop_append, List.reverse_append, List.findSome?_append] at found
  have unread : ((more.drop (gone - past.length)).reverse.findSome? fun s =>
      s.wifi?.filter fun r => decide (r.tsUs ≤ ts) && r.channel.isSome) = none := by
    rw [List.findSome?_eq_none_iff]
    intro s listed
    have pushed : s ∈ more := List.mem_of_mem_drop (List.mem_reverse.mp listed)
    cases s with
    | wifi reading =>
      have later := late _ pushed reading rfl
      simp [Sample.wifi?, later]
    | _ => rfl
  rw [unread, Option.none_or] at found
  have fewer : past.length - windowCap ≤ gone := by
    rw [goneIs, List.length_append]
    omega
  have cut : past.drop (past.length - windowCap) =
      (past.drop (past.length - windowCap)).take (gone - (past.length - windowCap)) ++
        past.drop gone := by
    have whole : past.length - windowCap + (gone - (past.length - windowCap)) = gone := by omega
    conv_lhs => rw [← List.take_append_drop (gone - (past.length - windowCap))
      (past.drop (past.length - windowCap))]
    rw [List.drop_drop, whole]
  rw [cut, List.reverse_append, List.findSome?_append, found, Option.some_or]

theorem wifiAtOrBefore_mono {w : RecentWindow} {ts ts' : Int} (later : ts ≤ ts')
    (found : (w.wifiAtOrBefore ts).isSome) : (w.wifiAtOrBefore ts').isSome := by
  unfold RecentWindow.wifiAtOrBefore at found ⊢
  rw [List.findSome?_isSome_iff] at found ⊢
  obtain ⟨s, listed, reads⟩ := found
  refine ⟨s, listed, ?_⟩
  cases s with
  | wifi reading =>
    simp only [Sample.wifi?, Option.isSome_filter, Option.any_some, Bool.and_eq_true,
      decide_eq_true_eq] at reads ⊢
    exact ⟨by omega, reads.2⟩
  | _ => cases reads

namespace HopPair

variable {history : List Sample}

/-- In order, the window a tick was evaluated in gives its links the channel the last one does. -/
theorem placementAt_past (ordered : InOrder history) (hop : HopPair history) (t : hop.Tick)
    {m : LinkSample} (listed : Sample.link m ∈ .link hop.left :: (t.seen ++ [.link t.link])) :
    placementAt (windowAfter t.past) m = placementAt (windowAfter history) m := by
  have split := t.past_prefix
  unfold InOrder at ordered
  rw [split, List.pairwise_append] at ordered
  obtain ⟨inPast, -, across⟩ := ordered
  have pushed : Sample.link m ∈ t.past := List.mem_append_right _ listed
  have late : ∀ s ∈ t.later ++ hop.after, ∀ reading, s = .wifi reading → m.tsUs < reading.tsUs :=
    fun s behind reading isReading => (across _ pushed s behind m rfl).1 reading isReading
  have notBefore : hop.left.tsUs ≤ m.tsUs := by
    rcases List.mem_cons.mp listed with same | behind
    · obtain rfl := Sample.link.inj same
      exact Int.le_refl _
    · unfold Tick.past at inPast
      rw [List.pairwise_append, List.pairwise_cons] at inPast
      exact (inPast.2.1.1 _ behind hop.left rfl).2 m rfl
  obtain ⟨before, -, leftRead, -, -⟩ := hop.moved
  obtain ⟨reading, leftFound, -⟩ := Option.bind_eq_some_iff.mp leftRead
  have found := wifiAtOrBefore_mono notBefore (Option.isSome_of_eq_some leftFound)
  obtain ⟨r, found⟩ := Option.isSome_iff_exists.mp found
  unfold placementAt
  rw [found]
  rw [split] at found
  rw [wifiAtOrBefore_past late found]

theorem mem_of_mem_linksOf {samples : List Sample} {l : LinkSample} (listed : l ∈ linksOf samples) :
    Sample.link l ∈ samples := by
  obtain ⟨s, pushed, isLink⟩ := List.mem_filterMap.mp listed
  cases s with
  | link k =>
    obtain rfl := Option.some.inj isLink
    exact pushed
  | _ => cases isLink

/-- The link before a tick is the left one, or one pushed since. -/
theorem prev_cases {hop : HopPair history} (t : hop.Tick) :
    (linksOf t.seen = [] ∧ t.prev = hop.left) ∨ t.prev ∈ linksOf t.seen := by
  unfold Tick.prev
  cases newest : (linksOf t.seen).getLast? with
  | none => exact .inl ⟨List.getLast?_eq_none_iff.mp newest, rfl⟩
  | some l => exact .inr (List.mem_of_getLast? newest)

theorem prev_listed {hop : HopPair history} (t : hop.Tick) :
    Sample.link t.prev ∈ Sample.link hop.left :: (t.seen ++ [.link t.link]) := by
  rcases prev_cases t with ⟨-, first⟩ | since
  · rw [first]
    exact List.mem_cons_self
  · exact List.mem_cons_of_mem _ (List.mem_append_left _ (mem_of_mem_linksOf since))

/-- A tick is the right link with everything between seen, or one of the links between. -/
theorem tick_cases {hop : HopPair history} (t : hop.Tick) :
    (t.seen = hop.mid ∧ t.link = hop.right) ∨
      ∃ later, hop.mid = t.seen ++ .link t.link :: later := by
  have split := t.split
  rcases List.eq_nil_or_concat t.later with none | ⟨later, last, some_later⟩
  · rw [none] at split
    obtain ⟨same, ends⟩ := List.append_inj' split rfl
    exact .inl ⟨same.symm, (Sample.link.inj (List.cons.inj ends).1).symm⟩
  · rw [some_later, List.concat_eq_append, ← List.cons_append, ← List.append_assoc] at split
    exact .inr ⟨later, (List.append_inj' split rfl).1⟩

theorem fired_iff {mac : String} (wifi : ∀ l ∈ linksOf history, OnAddress mac l)
    (hop : HopPair history) : hop.Fired ↔ hop.SeenAtOnce := by
  have each : ∀ t : hop.Tick, (roam.eval (windowAfter t.past)).isSome ↔
      ChannelMoved (windowAfter t.past) t.prev t.link := by
    intro t
    obtain ⟨rest, links⟩ := t.links_past
    have pushed : ∀ l, Sample.link l ∈ Sample.link hop.left :: (t.seen ++ [.link t.link]) →
        OnAddress mac l := by
      intro l listed
      have inHistory : Sample.link l ∈ history := by
        rw [t.past_prefix]
        exact List.mem_append_left _ (List.mem_append_right _ listed)
      exact wifi l (List.mem_filterMap.mpr ⟨_, inHistory, rfl⟩)
    exact roam_isSome_iff links (pushed _ (by simp)) (pushed _ (prev_listed t))
  unfold Fired SeenAtOnce
  simp only [each]

/-- In order, a hop is seen at once exactly when no link stands between its two. -/
theorem seenAtOnce_iff (ordered : InOrder history) (hop : HopPair history) :
    hop.SeenAtOnce ↔ linksOf hop.mid = [] := by
  constructor
  · rintro ⟨t, before, now, prevRead, read, -⟩
    rw [placementAt_past ordered hop t (prev_listed t)] at prevRead
    rw [placementAt_past ordered hop t (by simp)] at read
    rcases tick_cases t with ⟨same, -⟩ | ⟨later, between⟩
    · rcases prev_cases t with ⟨none, -⟩ | since
      · rw [← same, none]
      · rw [same] at since
        rw [hop.between _ since] at prevRead
        cases prevRead
    · have inMid : t.link ∈ linksOf hop.mid := by
        rw [between]
        exact List.mem_filterMap.mpr ⟨_, List.mem_append_right _ List.mem_cons_self, rfl⟩
      rw [hop.between _ inMid] at read
      cases read
  · intro adjacent
    obtain ⟨t, seenIs, linkIs⟩ : ∃ t : hop.Tick, t.seen = hop.mid ∧ t.link = hop.right :=
      ⟨⟨hop.mid, hop.right, [], rfl⟩, rfl, rfl⟩
    have prevIs : t.prev = hop.left := by
      unfold Tick.prev
      rw [seenIs, adjacent]
      rfl
    refine ⟨t, ?_⟩
    obtain ⟨before, now, leftRead, rightRead, differ⟩ := hop.moved
    refine ⟨before, now, ?_, ?_, differ⟩
    · rw [placementAt_past ordered hop t (prev_listed t), prevIs, leftRead]
    · rw [placementAt_past ordered hop t (by simp), linkIs, rightRead]

end HopPair

/-- Between any two links whose full channels differ, with none read in full between them, the
condition fires on some tick. -/
def KeepsHops (history : List Sample) : Prop := ∀ hop : HopPair history, hop.Fired

/-- Every hop is kept exactly when each is seen at once by some tick and the link before it; with
the samples in order, when no link stands between the two. -/
theorem roam_keepsHops_iff {mac : String} {history : List Sample}
    (wifi : ∀ l ∈ linksOf history, OnAddress mac l) :
    (KeepsHops history ↔ ∀ hop : HopPair history, hop.SeenAtOnce) ∧
      (InOrder history → (KeepsHops history ↔ ∀ hop : HopPair history, linksOf hop.mid = [])) := by
  unfold KeepsHops
  simp only [HopPair.fired_iff wifi, true_and]
  intro ordered
  simp only [HopPair.seenAtOnce_iff ordered]

def channelReading (tsUs : Int) (band : Option String) (channel width : Option Int) : Sample :=
  .wifi ⟨tsUs, .ok, none, none, none, none, none, none, channel, width, band⟩

def wifiLink (tsUs : Int) : LinkSample :=
  { LinkSample.gatewayOnly tsUs .ok with medium := some .wifi, ifMac := some "02:00:00:00:00:01" }

theorem wifiLink_onAddress (tsUs : Int) : OnAddress "02:00:00:00:00:01" (wifiLink tsUs) :=
  ⟨rfl, rfl, rfl⟩

/-- A hop with no link between its two is kept, also past a reading that had no channel at all. -/
theorem roam_keepsHops_adjacent :
    KeepsHops [channelReading 0 (some "5ghz") (some 48) (some 80), .link (wifiLink 1),
      channelReading 2 (some "2ghz") (some 6) (some 20), channelReading 3 (some "5ghz") none none,
      .link (wifiLink 4)] := by
  have wifi : ∀ l ∈ linksOf [channelReading 0 (some "5ghz") (some 48) (some 80),
      .link (wifiLink 1), channelReading 2 (some "2ghz") (some 6) (some 20),
      channelReading 3 (some "5ghz") none none, .link (wifiLink 4)],
      OnAddress "02:00:00:00:00:01" l := by
    intro l listed
    rcases List.mem_cons.mp listed with rfl | last
    · exact wifiLink_onAddress 1
    · rw [List.mem_singleton.mp last]
      exact wifiLink_onAddress 4
  have ordered : InOrder [channelReading 0 (some "5ghz") (some 48) (some 80), .link (wifiLink 1),
      channelReading 2 (some "2ghz") (some 6) (some 20), channelReading 3 (some "5ghz") none none,
      .link (wifiLink 4)] := by
    simp [InOrder, Succeeds, channelReading, wifiLink, LinkSample.gatewayOnly]
  refine ((roam_keepsHops_iff wifi).2 ordered).mpr ?_
  intro hop
  have links := congrArg (fun samples => (linksOf samples).length) hop.split
  have two : (linksOf [channelReading 0 (some "5ghz") (some 48) (some 80), .link (wifiLink 1),
      channelReading 2 (some "2ghz") (some 6) (some 20), channelReading 3 (some "5ghz") none none,
      .link (wifiLink 4)]).length = 2 := rfl
  have ends (l : LinkSample) (rest : List Sample) :
      (linksOf (.link l :: rest)).length = (linksOf rest).length + 1 := rfl
  simp only [two, linksOf_append, List.length_append, ends] at links
  exact List.length_eq_zero_iff.mp (by omega)

/-- A reading with a channel and no band, and a link that falls on it. -/
def bandlessHistory : List Sample :=
  [channelReading 0 (some "5ghz") (some 48) (some 80), .link (wifiLink 1),
    channelReading 2 none (some 6) (some 20), .link (wifiLink 3),
    channelReading 4 (some "2ghz") (some 6) (some 20), .link (wifiLink 5)]

theorem roam_loses_bandless_hop : ¬ KeepsHops bandlessHistory := by
  intro keeps
  have ordered : InOrder bandlessHistory := by
    simp [bandlessHistory, InOrder, Succeeds, channelReading, wifiLink, LinkSample.gatewayOnly]
  have wifi : ∀ l ∈ linksOf bandlessHistory, OnAddress "02:00:00:00:00:01" l := by
    intro l listed
    have ofClock : wifiLink 1 = l ∨ wifiLink 3 = l ∨ wifiLink 5 = l := by
      simpa [bandlessHistory, linksOf, Sample.link?, channelReading] using listed
    rcases ofClock with rfl | rfl | rfl
    · exact wifiLink_onAddress 1
    · exact wifiLink_onAddress 3
    · exact wifiLink_onAddress 5
  have moved : ChannelMoved (windowAfter bandlessHistory) (wifiLink 1) (wifiLink 5) :=
    ⟨("5ghz", 48, 80), ("2ghz", 6, 20), rfl, rfl, by decide⟩
  have between : ∀ l ∈ linksOf [channelReading 2 none (some 6) (some 20), .link (wifiLink 3),
      channelReading 4 (some "2ghz") (some 6) (some 20)],
      placementAt (windowAfter bandlessHistory) l = none := by
    intro l listed
    obtain rfl : l = wifiLink 3 := List.mem_singleton.mp listed
    rfl
  have lost := (HopPair.seenAtOnce_iff ordered _).mp ((HopPair.fired_iff wifi _).mp
    (keeps ⟨[channelReading 0 (some "5ghz") (some 48) (some 80)], _, _, _, [], rfl, by decide, moved,
      between⟩))
  cases lost

end NetObserver
