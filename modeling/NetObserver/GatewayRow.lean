import NetObserver.AnnounceBounds
import NetObserver.MdnsSender

/-! What the gateway's own row of the announce listener can carry: the addresses it paired itself
with, and the name of the first message that came with its address. -/

namespace NetObserver

open Machine

/-- A step on behalf of other addresses: the slot of this one is untouched, and none is lost. -/
structure Elsewhere (gw : MacAddr) (w w' : Window) : Prop where
  gateway : w'.gatewayMac = w.gatewayMac
  ownMac : w'.ownMac = w.ownMac
  slot : w'.devices[gw]? = w.devices[gw]?
  size : w.devices.size ≤ w'.devices.size

namespace Elsewhere

variable {gw mac : MacAddr} {w w' w'' : Window}

theorem refl (gw : MacAddr) (w : Window) : Elsewhere gw w w := ⟨rfl, rfl, rfl, Nat.le_refl _⟩

theorem trans (first : Elsewhere gw w w') (second : Elsewhere gw w' w'') : Elsewhere gw w w'' :=
  ⟨second.gateway.trans first.gateway, second.ownMac.trans first.ownMac,
    second.slot.trans first.slot, Nat.le_trans first.size second.size⟩

theorem drop (gw : MacAddr) (w : Window) (n : Nat) : Elsewhere gw w (w.drop n) :=
  ⟨rfl, rfl, rfl, Nat.le_refl _⟩

theorem setDevice (apart : mac ≠ gw) (w : Window) (dev : Device) :
    Elsewhere gw w (w.setDevice mac dev) := by
  refine ⟨rfl, rfl, ?_, Std.TreeMap.size_le_size_insert⟩
  exact (OrderedMap.getElem?_insert mac gw dev).trans (if_neg apart)

theorem device (apart : mac ≠ gw) (w : Window) : Elsewhere gw w (w.device mac).1 := by
  unfold Window.device
  split
  · exact refl gw w
  · split
    · exact refl gw w
    · split
      · exact drop gw w 1
      · exact setDevice apart w _

theorem sight (apart : mac ≠ gw) (w : Window) (ip : IpAddr) : Elsewhere gw w (w.sight mac ip) := by
  have asked := device apart w
  unfold Window.sight
  split
  next w' eq =>
    rw [eq] at asked
    exact asked
  next w' dev eq =>
    rw [eq] at asked
    have written := asked.trans (setDevice apart w'
      { dev with ips := (pushCapped dev.ips ip maxIpsPerDevice).1 })
    dsimp only
    split
    · exact written
    · exact written.trans (drop gw _ 1)

theorem name (apart : mac ≠ gw) (w : Window) (hostname : String) :
    Elsewhere gw w (w.name mac hostname) := by
  have asked := device apart w
  unfold Window.name
  split
  next w' eq =>
    rw [eq] at asked
    exact asked
  next w' dev eq =>
    rw [eq] at asked
    exact asked.trans (setDevice apart w' _)

theorem recordService (gw : MacAddr) (w : Window) (key : ServiceKey) (ip : Option IpAddr)
    (kind : AnnounceKind) (detail : Option String) :
    Elsewhere gw w (w.recordService key ip kind detail) := by
  unfold Window.recordService
  cases ip with
  | none => exact ⟨rfl, rfl, rfl, Nat.le_refl _⟩
  | some ip =>
    dsimp only
    split
    · exact ⟨rfl, rfl, rfl, Nat.le_refl _⟩
    · exact ⟨rfl, rfl, rfl, Nat.le_refl _⟩

theorem announce (apart : mac ≠ gw) (w : Window) (ip : Option IpAddr) (service : String)
    (kind : AnnounceKind) (detail : Option String) :
    Elsewhere gw w (w.announce mac ip service kind detail) := by
  have asked := device apart w
  unfold Window.announce
  dsimp only
  split
  next w' eq =>
    rw [eq] at asked
    exact asked
  next w' dev eq =>
    rw [eq] at asked
    split
    · split
      · exact asked.trans (drop gw w' 1)
      · exact (asked.trans (setDevice apart w' _)).trans (recordService gw _ _ ip kind detail)
    · exact asked.trans (recordService gw w' _ ip kind detail)

theorem rememberName (gw : MacAddr) (w : Window) (client : MacAddr) (hostname : String) :
    Elsewhere gw w (w.rememberName client hostname) := by
  unfold Window.rememberName
  split
  · exact refl gw w
  · split
    · exact drop gw w 1
    · exact ⟨rfl, rfl, rfl, Nat.le_refl _⟩

theorem forgetName (gw : MacAddr) (w : Window) (client : MacAddr) :
    Elsewhere gw w { w with pendingNames := w.pendingNames.erase client } :=
  ⟨rfl, rfl, rfl, Nat.le_refl _⟩

theorem absorbRequest {msg : DhcpMessage} (apart : msg.chaddr ≠ gw) (w : Window) :
    Elsewhere gw w (w.absorbRequest msg) := by
  unfold Window.absorbRequest
  split
  · exact refl gw w
  dsimp only
  split
  on_goal 1 => refine Elsewhere.trans ?_ (announce apart _ _ _ _ _)
  all_goals
    split
    · exact (sight apart w _).trans (name apart _ _)
    · exact sight apart w _
    · exact rememberName gw w _ _
    · exact refl gw w

/-- What a DHCP reply does after its server is announced is done for its client. -/
theorem absorbReply {msg : DhcpMessage} (apart : msg.chaddr ≠ gw) (w : Window) (srcMac : MacAddr)
    (srcIp : IpAddr) :
    Elsewhere gw (w.announce srcMac ((msg.serverId.map IpAddr.v4).or (some srcIp)) dhcpServerService
      .dhcp msg.messageType) (w.absorbReply srcMac srcIp msg) := by
  unfold Window.absorbReply
  dsimp only
  split
  · exact refl gw _
  split
  · have sighted := sight apart (w.announce srcMac ((msg.serverId.map IpAddr.v4).or (some srcIp))
      dhcpServerService .dhcp msg.messageType) (.v4 ‹_›)
    split
    · exact (sighted.trans (forgetName gw _ _)).trans (name apart _ _)
    · exact sighted
  · exact refl gw _

end Elsewhere

/-- The gateway's slot tells of the addresses paired with it and of its name so far. -/
structure SlotTold (paired : List IpAddr) (named : Option String) (dev : Device) : Prop where
  ips : ∀ ip ∈ dev.ips, ip ∈ paired
  some_ip : paired ≠ [] → dev.ips ≠ []
  hostname : dev.hostname = named

/-- The address will get no slot in this window: it names no device, the slots are all taken, or
it is this machine's own. -/
def Closed (own : Option MacAddr) (gw : MacAddr) (w : Window) : Prop :=
  isUnicast gw = false ∨ maxDevices ≤ w.devices.size ∨ own = some gw

/-- The address may have a slot: it names one device, and not this machine. -/
structure Nameable (own : Option MacAddr) (gw : MacAddr) : Prop where
  unicast : isUnicast gw = true
  notOwn : own ≠ some gw

structure GatewayTold (own : Option MacAddr) (gw : MacAddr) (paired : List IpAddr)
    (named : Option String) (w : Window) : Prop where
  gateway : w.gatewayMac = some gw
  ownMac : w.ownMac = own
  slot : (∃ dev, Nameable own gw ∧ w.devices[gw]? = some dev ∧ SlotTold paired named dev) ∨
    (w.devices[gw]? = none ∧ (Closed own gw w ∨ (paired = [] ∧ named = none)))

namespace GatewayTold

variable {own : Option MacAddr} {gw : MacAddr} {paired : List IpAddr} {named : Option String}
  {w w' : Window}

theorem elsewhere (told : GatewayTold own gw paired named w) (step : Elsewhere gw w w') :
    GatewayTold own gw paired named w' := by
  refine ⟨step.gateway.trans told.gateway, step.ownMac.trans told.ownMac, ?_⟩
  rw [step.slot]
  rcases told.slot with slot | ⟨absent, closed | nothing⟩
  · exact .inl slot
  · refine .inr ⟨absent, .inl ?_⟩
    rcases closed with group | full | isOwn
    · exact .inl group
    · exact .inr (.inl (Nat.le_trans full step.size))
    · exact .inr (.inr isOwn)
  · exact .inr ⟨absent, .inr nothing⟩

/-- What is known once the gateway's slot was asked for: there is one, or there never will be. -/
structure Asked (own : Option MacAddr) (gw : MacAddr) (paired : List IpAddr)
    (named : Option String) (asked : Window × Option Device) : Prop where
  gateway : asked.1.gatewayMac = some gw
  ownMac : asked.1.ownMac = own
  slot : ∀ dev, asked.2 = some dev →
    Nameable own gw ∧ asked.1.devices[gw]? = some dev ∧ SlotTold paired named dev
  absent : asked.2 = none → asked.1.devices[gw]? = none ∧ Closed own gw asked.1

/-- Nothing more can be told of an address that will get no slot. -/
theorem Asked.closed (asked : Asked own gw paired named (w, none)) (paired' : List IpAddr)
    (named' : Option String) : GatewayTold own gw paired' named' w :=
  ⟨asked.gateway, asked.ownMac, .inr ⟨(asked.absent rfl).1, .inl (asked.absent rfl).2⟩⟩

theorem Asked.write {dev dev' : Device} (asked : Asked own gw paired named (w, some dev))
    {paired' : List IpAddr} {named' : Option String} (slot : SlotTold paired' named' dev') :
    GatewayTold own gw paired' named' (w.setDevice gw dev') :=
  ⟨asked.gateway, asked.ownMac, .inl ⟨dev', (asked.slot dev rfl).1,
    (OrderedMap.getElem?_insert gw gw dev').trans (if_pos rfl), slot⟩⟩

theorem asked (told : GatewayTold own gw paired named w) (notOwn : own ≠ some gw) :
    Asked own gw paired named (w.device gw) := by
  unfold Window.device
  cases unicast : isUnicast gw with
  | false =>
    refine ⟨told.gateway, told.ownMac, fun dev isSlot => (by cases isSlot), fun _ => ?_⟩
    rcases told.slot with ⟨dev, nameable, -⟩ | ⟨absent, -⟩
    · have isUni := nameable.unicast
      rw [unicast] at isUni
      cases isUni
    · exact ⟨absent, .inl unicast⟩
  | true =>
    rw [Bool.not_true, if_neg Bool.false_ne_true]
    rcases told.slot with ⟨dev, -, found, slot⟩ | ⟨absent, why⟩
    · rw [found]
      refine ⟨told.gateway, told.ownMac, ?_, fun isNone => (by cases isNone)⟩
      intro dev' same
      obtain rfl := Option.some.inj same
      exact ⟨⟨unicast, notOwn⟩, found, slot⟩
    · rw [absent]
      dsimp only
      by_cases full : maxDevices ≤ w.devices.size
      · rw [if_pos full]
        exact ⟨told.gateway, told.ownMac, fun dev isSlot => (by cases isSlot),
          fun _ => ⟨absent, .inr (.inl full)⟩⟩
      · rw [if_neg full]
        refine ⟨told.gateway, told.ownMac, ?_, fun isNone => (by cases isNone)⟩
        intro dev same
        obtain rfl := Option.some.inj same
        have nothing : paired = [] ∧ named = none := by
          rcases why with (group | taken | isOwn) | nothing
          · rw [unicast] at group
            cases group
          · exact absurd taken full
          · exact absurd isOwn notOwn
          · exact nothing
        refine ⟨⟨unicast, notOwn⟩, (OrderedMap.getElem?_insert gw gw _).trans (if_pos rfl), ?_⟩
        rw [nothing.1, nothing.2]
        exact ⟨by simp, fun some_paired => absurd rfl some_paired, rfl⟩

theorem pushCapped_told {ips : List IpAddr} (old : ∀ ip ∈ ips, ip ∈ paired) (ip : IpAddr) :
    (∀ other ∈ (pushCapped ips ip maxIpsPerDevice).1, other ∈ paired ++ [ip]) ∧
      (pushCapped ips ip maxIpsPerDevice).1 ≠ [] := by
  have kept : ∀ other ∈ ips, other ∈ paired ++ [ip] :=
    fun other listed => List.mem_append_left _ (old other listed)
  unfold pushCapped
  split
  next known =>
    refine ⟨kept, ?_⟩
    rintro rfl
    cases known
  next =>
    split
    next full =>
      refine ⟨kept, ?_⟩
      rintro rfl
      exact absurd full (by decide)
    next =>
      refine ⟨?_, by simp⟩
      intro other listed
      rcases List.mem_append.mp listed with before | new
      · exact kept other before
      · exact List.mem_append_right _ new

theorem sight (told : GatewayTold own gw paired named w) (notOwn : own ≠ some gw) (ip : IpAddr) :
    GatewayTold own gw (paired ++ [ip]) named (w.sight gw ip) := by
  have asked := told.asked notOwn
  unfold Window.sight
  split
  next w' eq =>
    rw [eq] at asked
    exact asked.closed _ _
  next w' dev eq =>
    rw [eq] at asked
    obtain ⟨-, -, slot⟩ := asked.slot dev rfl
    obtain ⟨ips, some_ip⟩ := pushCapped_told slot.ips ip
    have written : GatewayTold own gw (paired ++ [ip]) named
        (w'.setDevice gw { dev with ips := (pushCapped dev.ips ip maxIpsPerDevice).1 }) :=
      asked.write ⟨ips, fun _ => some_ip, slot.hostname⟩
    dsimp only
    split
    · exact written
    · exact written.elsewhere (Elsewhere.drop gw _ 1)

theorem name (told : GatewayTold own gw paired named w) (notOwn : own ≠ some gw)
    (hostname : String) :
    GatewayTold own gw paired (named.or (some hostname)) (w.name gw hostname) := by
  have asked := told.asked notOwn
  unfold Window.name
  split
  next w' eq =>
    rw [eq] at asked
    exact asked.closed _ _
  next w' dev eq =>
    rw [eq] at asked
    obtain ⟨-, -, slot⟩ := asked.slot dev rfl
    refine asked.write ⟨slot.ips, slot.some_ip, ?_⟩
    rw [← slot.hostname]
    cases dev.hostname <;> rfl

/-- A service of the gateway's own tells nothing of its address or name. -/
theorem announce (told : GatewayTold own gw paired named w) (notOwn : own ≠ some gw)
    (ip : Option IpAddr) (service : String) (kind : AnnounceKind) (detail : Option String) :
    GatewayTold own gw paired named (w.announce gw ip service kind detail) := by
  have asked := told.asked notOwn
  unfold Window.announce
  dsimp only
  split
  next w' eq =>
    rw [eq] at asked
    exact asked.closed _ _
  next w' dev eq =>
    rw [eq] at asked
    obtain ⟨nameable, found, slot⟩ := asked.slot dev rfl
    have held : GatewayTold own gw paired named w' :=
      ⟨asked.gateway, asked.ownMac, .inl ⟨dev, nameable, found, slot⟩⟩
    split
    · split
      · exact held.elsewhere (Elsewhere.drop gw w' 1)
      · have written : GatewayTold own gw paired named
            (w'.setDevice gw { dev with services := dev.services + 1 }) :=
          asked.write ⟨slot.ips, slot.some_ip, slot.hostname⟩
        exact written.elsewhere (Elsewhere.recordService gw _ _ ip kind detail)
    · exact held.elsewhere (Elsewhere.recordService gw w' _ ip kind detail)

end GatewayTold

/-- The address a frame pairs with the gateway: that of its own ARP, unless it is a reply or the
sender has none yet. -/
def pairingOf (c : Decoders) (gw : MacAddr) (bytes : List UInt8) : Option IpAddr :=
  match c.frame bytes with
  | some ⟨_, .arp senderMac senderIp reply⟩ =>
    if senderMac = gw ∧ reply = false ∧ (IpAddr.v4 senderIp).isUnspecified = false then
      some (.v4 senderIp)
    else none
  | _ => none

/-- The name an mDNS message with the gateway's Ethernet source gives its sender, and the address
it came from, which is the one the name is tied to. -/
def namingOf (c : Decoders) (gw : MacAddr) (bytes : List UInt8) : Option (String × IpAddr) :=
  match c.frame bytes with
  | some ⟨srcMac, .udp srcIp srcPort dstPort payload⟩ =>
    if srcMac = gw ∧ (srcPort = mdnsPort ∨ dstPort = mdnsPort) then
      (c.mdns payload srcIp).bind fun facts => facts.hostnames.head?.map fun name => (name, srcIp)
    else none
  | _ => none

/-- With the listener's own decoder, the message ties such a name to the address it came from. -/
theorem namingOf_tied {c : Decoders} {dns : Mdns.SimpleDns} (decoder : c.mdns = Mdns.decode dns)
    (faithful : Mdns.AsciiFaithful dns.labelText) {gw : MacAddr} {bytes : List UInt8}
    {name : String} {ip : IpAddr} (naming : namingOf c gw bytes = some (name, ip)) :
    ∃ payload packet, dns.parse payload = some packet ∧
      Mdns.NamesSender dns.labelText packet.records ip name := by
  unfold namingOf at naming
  split at naming
  next srcMac srcIp srcPort dstPort payload _ =>
    split at naming
    · obtain ⟨facts, decoded, first⟩ := Option.bind_eq_some_iff.mp naming
      obtain ⟨name', isFirst, same⟩ := Option.map_eq_some_iff.mp first
      obtain ⟨rfl, rfl⟩ := Prod.mk.inj same
      rw [decoder] at decoded
      obtain ⟨packet, parsed, rfl⟩ := Option.map_eq_some_iff.mp decoded
      exact ⟨payload, packet, parsed,
        Mdns.hostname_namesSender faithful (List.mem_of_head? isFirst)⟩
    · cases naming
  next => cases naming

/-- A frame whose ARP sender is its Ethernet source and whose DHCP client is not the gateway. -/
structure GatewayFrame (c : Decoders) (gw : MacAddr) (bytes : List UInt8) : Prop where
  arp : ∀ srcMac senderMac senderIp reply,
    c.frame bytes = some ⟨srcMac, .arp senderMac senderIp reply⟩ → senderMac = srcMac
  dhcp : ∀ srcMac srcIp srcPort dstPort payload msg,
    c.frame bytes = some ⟨srcMac, .udp srcIp srcPort dstPort payload⟩ →
      c.dhcp payload = some msg → msg.chaddr ≠ gw

section

variable {c : Decoders} {own : Option MacAddr} {gw srcMac : MacAddr} {paired : List IpAddr}
  {named : Option String} {w : Window}

theorem announceAll_elsewhere (apart : srcMac ≠ gw) (srcIp : IpAddr)
    (services : List (String × Option String)) (w : Window) :
    Elsewhere gw w (services.foldl
      (fun w service => w.announce srcMac (some srcIp) service.1 .mdns service.2) w) := by
  induction services generalizing w with
  | nil => exact Elsewhere.refl gw w
  | cons service services ih =>
    rw [List.foldl_cons]
    exact (Elsewhere.announce apart w _ _ _ _).trans (ih _)

theorem announceAll_told (notOwn : own ≠ some gw) (srcIp : IpAddr)
    (services : List (String × Option String)) (told : GatewayTold own gw paired named w) :
    GatewayTold own gw paired named (services.foldl
      (fun w service => w.announce gw (some srcIp) service.1 .mdns service.2) w) := by
  induction services generalizing w with
  | nil => exact told
  | cons service services ih =>
    rw [List.foldl_cons]
    exact ih (told.announce notOwn _ _ _ _)

theorem absorbMdns_elsewhere (apart : srcMac ≠ gw) (w : Window) (srcIp : IpAddr)
    (payload : List UInt8) : Elsewhere gw w (w.absorbMdns c srcMac srcIp payload) := by
  unfold Window.absorbMdns
  split
  next => exact Elsewhere.refl gw w
  next facts _ =>
    refine (Elsewhere.trans ?_ (announceAll_elsewhere apart srcIp facts.services _)).trans
      (Elsewhere.drop gw _ _)
    split
    · exact Elsewhere.name apart w _
    · exact Elsewhere.refl gw w

/-- A message with the gateway's own Ethernet source names it, unless it has a name. -/
theorem absorbMdns_told (notOwn : own ≠ some gw) (told : GatewayTold own gw paired named w)
    (srcIp : IpAddr) (payload : List UInt8) :
    GatewayTold own gw paired
      (named.or ((c.mdns payload srcIp).bind fun facts => facts.hostnames.head?))
      (w.absorbMdns c gw srcIp payload) := by
  unfold Window.absorbMdns
  split
  next none =>
    rw [none, Option.bind_none, Option.or_none]
    exact told
  next facts some =>
    rw [some, Option.bind_some]
    dsimp only
    cases head : facts.hostnames.head? with
    | none =>
      rw [Option.or_none]
      exact (announceAll_told notOwn srcIp facts.services told).elsewhere (Elsewhere.drop gw _ _)
    | some hostname =>
      exact (announceAll_told notOwn srcIp facts.services (told.name notOwn hostname)).elsewhere
        (Elsewhere.drop gw _ _)

theorem absorbSsdp_elsewhere (apart : srcMac ≠ gw) (w : Window) (srcIp : IpAddr)
    (payload : List UInt8) : Elsewhere gw w (w.absorbSsdp c srcMac srcIp payload) := by
  unfold Window.absorbSsdp
  split
  · exact Elsewhere.refl gw w
  · exact Elsewhere.announce apart w _ _ _ _

theorem absorbSsdp_told (notOwn : own ≠ some gw) (told : GatewayTold own gw paired named w)
    (srcIp : IpAddr) (payload : List UInt8) :
    GatewayTold own gw paired named (w.absorbSsdp c gw srcIp payload) := by
  unfold Window.absorbSsdp
  split
  · exact told
  · exact told.announce notOwn _ _ _ _

theorem absorbDhcp_elsewhere (apart : srcMac ≠ gw) (w : Window) (srcIp : IpAddr)
    {payload : List UInt8} (client : ∀ msg, c.dhcp payload = some msg → msg.chaddr ≠ gw) :
    Elsewhere gw w (w.absorbDhcp c srcMac srcIp payload) := by
  unfold Window.absorbDhcp
  split
  next => exact Elsewhere.refl gw w
  next msg decoded =>
    split
    · exact Elsewhere.absorbRequest (client msg decoded) w
    · exact (Elsewhere.announce apart w _ _ _ _).trans
        (Elsewhere.absorbReply (client msg decoded) w srcMac srcIp)

theorem absorbDhcp_told (notOwn : own ≠ some gw) (told : GatewayTold own gw paired named w)
    (srcIp : IpAddr) {payload : List UInt8}
    (client : ∀ msg, c.dhcp payload = some msg → msg.chaddr ≠ gw) :
    GatewayTold own gw paired named (w.absorbDhcp c gw srcIp payload) := by
  unfold Window.absorbDhcp
  split
  next => exact told
  next msg decoded =>
    split
    · exact told.elsewhere (Elsewhere.absorbRequest (client msg decoded) w)
    · exact (told.announce notOwn _ _ _ _).elsewhere
        (Elsewhere.absorbReply (client msg decoded) w gw srcIp)

/-- A frame of another sender tells nothing of the gateway. -/
theorem tells_nothing {bytes : List UInt8} {frame : Frame} (decoded : c.frame bytes = some frame)
    (allowed : GatewayFrame c gw bytes) (apart : frame.srcMac ≠ gw) :
    pairingOf c gw bytes = none ∧ namingOf c gw bytes = none := by
  obtain ⟨sender, heard⟩ := frame
  unfold pairingOf namingOf
  rw [decoded]
  cases heard with
  | arp senderMac senderIp reply =>
    have same := allowed.arp sender senderMac senderIp reply decoded
    rw [same]
    exact ⟨if_neg fun both => apart both.1, rfl⟩
  | udp srcIp srcPort dstPort payload => exact ⟨rfl, if_neg fun both => apart both.1⟩
  | other => exact ⟨rfl, rfl⟩

/-- What another sender's frame does, it does elsewhere. -/
theorem absorbHeard_elsewhere {bytes : List UInt8} {frame : Frame}
    (decoded : c.frame bytes = some frame) (allowed : GatewayFrame c gw bytes)
    (apart : frame.srcMac ≠ gw) (w : Window) : Elsewhere gw w (w.absorbHeard c frame) := by
  obtain ⟨sender, heard⟩ := frame
  unfold Window.absorbHeard
  cases heard with
  | arp senderMac senderIp reply =>
    have same := allowed.arp sender senderMac senderIp reply decoded
    dsimp only
    split
    · exact Elsewhere.sight (same ▸ apart) w _
    · exact Elsewhere.refl gw w
  | udp srcIp srcPort dstPort payload =>
    have client := fun msg => allowed.dhcp sender srcIp srcPort dstPort payload msg decoded
    have sighted : Elsewhere gw w (if addressable srcIp && !(some sender == w.gatewayMac) then
        w.sight sender srcIp else w) := by
      split
      · exact Elsewhere.sight apart w srcIp
      · exact Elsewhere.refl gw w
    dsimp only
    split
    · exact sighted.trans (absorbMdns_elsewhere apart _ srcIp payload)
    split
    · exact sighted.trans (absorbSsdp_elsewhere apart _ srcIp payload)
    split
    · exact sighted.trans (absorbDhcp_elsewhere apart _ srcIp client)
    · exact sighted
  | other => exact Elsewhere.refl gw w

/-- A frame of the gateway's own: its ARP pairs it, a datagram from it pairs nothing. -/
theorem absorbHeard_told {bytes : List UInt8} {heard : Heard}
    (decoded : c.frame bytes = some ⟨gw, heard⟩) (allowed : GatewayFrame c gw bytes)
    (notOwn : own ≠ some gw) (told : GatewayTold own gw paired named w) :
    GatewayTold own gw (paired ++ (pairingOf c gw bytes).toList)
      (named.or ((namingOf c gw bytes).map (·.1))) (w.absorbHeard c ⟨gw, heard⟩) := by
  have guarded : (some gw == w.gatewayMac) = true := by simp [told.gateway]
  unfold Window.absorbHeard pairingOf namingOf
  rw [decoded]
  cases heard with
  | arp senderMac senderIp reply =>
    obtain rfl := allowed.arp gw senderMac senderIp reply decoded
    have notMine : w.isOwn senderMac = false := by simp [Window.isOwn, told.ownMac, notOwn]
    dsimp only
    rw [guarded, notMine, Option.map_none, Option.or_none]
    by_cases pairs : reply = false ∧ (IpAddr.v4 senderIp).isUnspecified = false
    · rw [if_pos ⟨rfl, pairs⟩, if_pos (by simp [pairs])]
      exact told.sight notOwn _
    · rw [if_neg fun all => pairs all.2, if_neg (by simpa [and_comm] using pairs)]
      simpa using told
  | udp srcIp srcPort dstPort payload =>
    have client := fun msg => allowed.dhcp gw srcIp srcPort dstPort payload msg decoded
    have unpaired : (addressable srcIp && !true) = false := by simp
    dsimp only
    rw [guarded, unpaired, if_neg Bool.false_ne_true, Option.toList_none, List.append_nil]
    by_cases mdns : srcPort = mdnsPort ∨ dstPort = mdnsPort
    · rw [if_pos ⟨rfl, mdns⟩, if_pos (by simpa using mdns)]
      have named := absorbMdns_told (c := c) notOwn told srcIp payload
      simpa [Option.map_bind, Function.comp_def] using named
    · rw [if_neg fun both => mdns both.2, if_neg (by simpa using mdns), Option.map_none,
        Option.or_none]
      split
      · exact absorbSsdp_told notOwn told srcIp payload
      split
      · exact absorbDhcp_told notOwn told srcIp client
      · exact told
  | other => simpa using told

theorem absorb_told {bytes : List UInt8} (allowed : GatewayFrame c gw bytes)
    (told : GatewayTold own gw paired named w) :
    GatewayTold own gw (paired ++ (pairingOf c gw bytes).toList)
      (named.or ((namingOf c gw bytes).map (·.1))) (w.absorb c bytes) := by
  have counted : Elsewhere gw w { w with heard := satAddU32 w.heard 1 } :=
    ⟨rfl, rfl, rfl, Nat.le_refl _⟩
  have told := told.elsewhere counted
  unfold Window.absorb
  dsimp only
  cases decoded : c.frame bytes with
  | none =>
    have nothing : pairingOf c gw bytes = none ∧ namingOf c gw bytes = none := by
      simp [pairingOf, namingOf, decoded]
    rw [nothing.1, nothing.2, Option.toList_none, List.append_nil, Option.map_none, Option.or_none]
    exact told.elsewhere ⟨rfl, rfl, rfl, Nat.le_refl _⟩
  | some frame =>
    dsimp only
    by_cases sender : frame.srcMac = gw
    · obtain ⟨srcMac, heard⟩ := frame
      obtain rfl : srcMac = gw := sender
      have ownMac : w.ownMac = own := told.ownMac
      by_cases mine : own = some srcMac
      · rw [if_pos (by simp [Window.isOwn, ownMac, mine])]
        rcases told.slot with ⟨dev, nameable, -⟩ | ⟨absent, -⟩
        · exact absurd mine nameable.notOwn
        · exact ⟨told.gateway, told.ownMac, .inr ⟨absent, .inl (.inr (.inr mine))⟩⟩
      · rw [if_neg (by simpa [Window.isOwn, ownMac] using mine)]
        exact absorbHeard_told decoded allowed mine told
    · obtain ⟨unpaired, unnamed⟩ := tells_nothing decoded allowed sender
      rw [unpaired, unnamed, Option.toList_none, List.append_nil, Option.map_none, Option.or_none]
      split
      · exact told.elsewhere ⟨rfl, rfl, rfl, Nat.le_refl _⟩
      · exact told.elsewhere (absorbHeard_elsewhere decoded allowed sender _)

/-- Over any frames: the slot holds addresses the gateway paired itself with, and the name of the
first message with its Ethernet source that has one. -/
theorem absorbAll_told {frames : List (List UInt8)}
    (allowed : ∀ bytes ∈ frames, GatewayFrame c gw bytes)
    (told : GatewayTold own gw paired named w) :
    GatewayTold own gw (paired ++ frames.filterMap (pairingOf c gw))
      (named.or ((frames.filterMap (namingOf c gw)).head?.map (·.1)))
      (frames.foldl (Window.absorb c) w) := by
  induction frames generalizing paired named w with
  | nil => simpa using told
  | cons bytes frames ih =>
    obtain ⟨here, rest⟩ := List.forall_mem_cons.mp allowed
    have later := ih rest (absorb_told here told)
    rw [List.foldl_cons]
    have namings : ((bytes :: frames).filterMap (namingOf c gw)).head? =
        (namingOf c gw bytes).or (frames.filterMap (namingOf c gw)).head? := by
      rw [filterMap_cons_toList]
      cases namingOf c gw bytes <;> rfl
    rw [filterMap_cons_toList, namings, ← List.append_assoc, Option.map_or, ← Option.or_assoc]
    exact later

end

/-- The addresses the gateway paired itself with in these frames. -/
def pairings (c : Decoders) (gw : MacAddr) (frames : List (List UInt8)) : List IpAddr :=
  frames.filterMap (pairingOf c gw)

/-- The message that named the gateway in these frames: the first, with the address it came from. -/
def naming (c : Decoders) (gw : MacAddr) (frames : List (List UInt8)) : Option (String × IpAddr) :=
  (frames.filterMap (namingOf c gw)).head?

theorem listened_told {c : Decoders} {own : Option MacAddr} {networkKey iface : Option String}
    {gw : MacAddr} {frames : List (List UInt8)} (keyed : networkKey.bind macOctets = some gw)
    (allowed : ∀ bytes ∈ frames, GatewayFrame c gw bytes) :
    GatewayTold own gw (pairings c gw frames) ((naming c gw frames).map (·.1))
      ((Window.new own networkKey iface).absorbAll c frames) := by
  have fresh : GatewayTold own gw [] none (Window.new own networkKey iface) := by
    refine ⟨keyed, rfl, .inr ⟨?_, .inr ⟨rfl, rfl⟩⟩⟩
    exact Std.TreeMap.getElem?_emptyc
  have after := absorbAll_told allowed fresh
  rw [List.nil_append, Option.none_or] at after
  exact after

/-- A row of the gateway's address is that of its slot. -/
theorem mem_flush_iff {w : Window} {gw : MacAddr} {tsUs : Int} {row : NeighborObs} :
    (row ∈ (w.flush tsUs).neighbors ∧ row.mac = macText gw) ↔
      ∃ dev ip, w.devices[gw]? = some dev ∧ preferred dev.ips = some ip ∧
        row = ⟨macText gw, ip.text, .announce, dev.hostname, .unknown⟩ := by
  change (row ∈ w.devices.toList.filterMap Window.neighborRow ∧ _) ↔ _
  constructor
  · rintro ⟨listed, ofGateway⟩
    obtain ⟨⟨mac, dev⟩, held, rowOf⟩ := List.mem_filterMap.mp listed
    obtain ⟨ip, chosen, rfl⟩ := Option.map_eq_some_iff.mp rowOf
    obtain rfl : mac = gw := macText_injective ofGateway
    exact ⟨dev, ip, Std.TreeMap.mem_toList_iff_getElem?_eq_some.mp held, chosen, rfl⟩
  · rintro ⟨dev, ip, found, chosen, rfl⟩
    refine ⟨List.mem_filterMap.mpr ⟨(gw, dev),
      Std.TreeMap.mem_toList_iff_getElem?_eq_some.mpr found, ?_⟩, rfl⟩
    simp [Window.neighborRow, chosen]

/-- The row's address is one the gateway paired itself with, and its name one that a message tied
to such an address. -/
structure RowClean (c : Decoders) (gw : MacAddr) (frames : List (List UInt8)) (row : NeighborObs) :
    Prop where
  address : ∃ ip ∈ pairings c gw frames, row.ip = ip.text
  name : ∀ hostname, row.hostname = some hostname →
    ∃ ip ∈ pairings c gw frames, naming c gw frames = some (hostname, ip)

theorem row_address {c : Decoders} {own : Option MacAddr} {networkKey iface : Option String}
    {gw : MacAddr} {frames : List (List UInt8)} (keyed : networkKey.bind macOctets = some gw)
    (allowed : ∀ bytes ∈ frames, GatewayFrame c gw bytes) {tsUs : Int} {row : NeighborObs}
    (listed : row ∈ (((Window.new own networkKey iface).absorbAll c frames).flush tsUs).neighbors)
    (ofGateway : row.mac = macText gw) :
    (∃ ip ∈ pairings c gw frames, row.ip = ip.text) ∧
      row.hostname = (naming c gw frames).map (·.1) := by
  obtain ⟨dev, ip, found, chosen, rfl⟩ := mem_flush_iff.mp ⟨listed, ofGateway⟩
  have told : GatewayTold own gw _ _ ((Window.new own networkKey iface).absorbAll c frames) :=
    listened_told keyed allowed
  rcases told.slot with ⟨dev', -, found', slot⟩ | ⟨absent, -⟩
  · obtain rfl := Option.some.inj (found.symm.trans found')
    exact ⟨⟨ip, slot.ips ip (preferred_mem chosen), rfl⟩, slot.hostname⟩
  · rw [absent] at found
    cases found

/-- The gateway has a row exactly when it got a slot and paired itself with an address. -/
theorem row_exists_iff {c : Decoders} {own : Option MacAddr} {networkKey iface : Option String}
    {gw : MacAddr} {frames : List (List UInt8)} (keyed : networkKey.bind macOctets = some gw)
    (allowed : ∀ bytes ∈ frames, GatewayFrame c gw bytes) (tsUs : Int) :
    (∃ row ∈ (((Window.new own networkKey iface).absorbAll c frames).flush tsUs).neighbors,
        row.mac = macText gw) ↔
      gw ∈ ((Window.new own networkKey iface).absorbAll c frames).devices ∧
        pairings c gw frames ≠ [] := by
  have told : GatewayTold own gw _ _ ((Window.new own networkKey iface).absorbAll c frames) :=
    listened_told keyed allowed
  constructor
  · rintro ⟨row, listed, ofGateway⟩
    obtain ⟨dev, ip, found, -, -⟩ := mem_flush_iff.mp ⟨listed, ofGateway⟩
    obtain ⟨⟨paired, isPaired, -⟩, -⟩ := row_address keyed allowed listed ofGateway
    exact ⟨OrderedMap.mem_of_getElem? found, List.ne_nil_of_mem isPaired⟩
  · rintro ⟨held, some_paired⟩
    obtain ⟨dev, found⟩ := OrderedMap.getElem?_of_mem held
    rcases told.slot with ⟨dev', -, found', slot⟩ | ⟨absent, -⟩
    · obtain rfl := Option.some.inj (found.symm.trans found')
      cases chosen : preferred dev.ips with
      | none => exact absurd (preferred_none chosen) (slot.some_ip some_paired)
      | some ip => exact ⟨_, mem_flush_iff.mpr ⟨dev, ip, found, chosen, rfl⟩⟩
    · rw [absent] at found
      cases found

/-- Every gateway row carries an address the gateway paired itself with; its name is as clean
exactly when the message that named it came from such an address, if the gateway has a row. -/
theorem gatewayRow_clean_iff {c : Decoders} {own : Option MacAddr}
    {networkKey iface : Option String} {gw : MacAddr} {frames : List (List UInt8)}
    (keyed : networkKey.bind macOctets = some gw)
    (allowed : ∀ bytes ∈ frames, GatewayFrame c gw bytes) (tsUs : Int) :
    (∀ row ∈ (((Window.new own networkKey iface).absorbAll c frames).flush tsUs).neighbors,
      row.mac = macText gw → ∃ ip ∈ pairings c gw frames, row.ip = ip.text) ∧
    ((∀ row ∈ (((Window.new own networkKey iface).absorbAll c frames).flush tsUs).neighbors,
        row.mac = macText gw → RowClean c gw frames row) ↔
      (gw ∈ ((Window.new own networkKey iface).absorbAll c frames).devices →
        pairings c gw frames ≠ [] → ∀ hostname ip,
          naming c gw frames = some (hostname, ip) → ip ∈ pairings c gw frames)) := by
  refine ⟨fun row listed ofGateway => (row_address keyed allowed listed ofGateway).1, ?_⟩
  constructor
  · intro clean held some_paired hostname ip named
    obtain ⟨row, listed, ofGateway⟩ := (row_exists_iff keyed allowed tsUs).mpr ⟨held, some_paired⟩
    have hasName := (row_address keyed allowed listed ofGateway).2
    rw [named] at hasName
    obtain ⟨ip', paired, same⟩ := (clean row listed ofGateway).name hostname hasName
    rw [named] at same
    obtain rfl : ip = ip' := congrArg Prod.snd (Option.some.inj same)
    exact paired
  · intro tied row listed ofGateway
    obtain ⟨address, hasName⟩ := row_address keyed allowed listed ofGateway
    obtain ⟨held, some_paired⟩ :=
      (row_exists_iff keyed allowed tsUs).mp ⟨row, listed, ofGateway⟩
    refine ⟨address, ?_⟩
    intro hostname isName
    rw [hasName] at isName
    obtain ⟨⟨hostname', ip⟩, named, rfl⟩ := Option.map_eq_some_iff.mp isName
    exact ⟨ip, tied held some_paired hostname' ip named, named⟩

namespace Forwarding

def gateway : MacAddr := #v[0x60, 0x22, 0x32, 0xaa, 0x25, 0x21]

/-- A broadcast Ethernet header of the gateway's: ARP ends it with 6, IPv4 with 0. -/
def header (etherType : UInt8) : List UInt8 :=
  [0xff, 0xff, 0xff, 0xff, 0xff, 0xff] ++ gateway.toList ++ [0x08, etherType]

/-- The gateway's ARP request for 192.168.1.1, and an mDNS message it passes on. -/
def frames : List (List UInt8) := [header 6, header 0]

def host : Mdns.Name := ["printer", "local"].map Mdns.asciiBytes

def dns (address : Ipv4Addr) : Mdns.SimpleDns where
  parse := fun _ => some ⟨[⟨host, .a address⟩], [], []⟩
  labelText := Mdns.asciiText

/-- The message comes from an address that it names. -/
def decoders (address : Ipv4Addr) : Decoders where
  frame := fun bytes =>
    if bytes.getLast? = some 6 then some ⟨gateway, .arp gateway #v[192, 168, 1, 1] false⟩
    else some ⟨gateway, .udp (.v4 address) 5353 5353 []⟩
  mdns := Mdns.decode (dns address)
  ssdp := fun _ => none
  dhcp := fun _ => none

theorem keyed : (some "60:22:32:aa:25:21").bind macOctets = some gateway := by decide

theorem decoders_mdns (address : Ipv4Addr) :
    (decoders address).mdns [] (.v4 address) = some ⟨["printer.local"], [], 0⟩ := by
  simp [decoders, Mdns.decode, dns, Mdns.factsOf, Mdns.Packet.records, Mdns.absorb,
    Mdns.Absorbed.claim, Mdns.dedup]
  decide

theorem allowed (address : Ipv4Addr) :
    ∀ bytes ∈ frames, GatewayFrame (decoders address) gateway bytes := by
  intro bytes _
  constructor
  · intro srcMac senderMac senderIp reply heard
    unfold decoders at heard
    dsimp only at heard
    split at heard
    · cases heard
      rfl
    · cases heard
  · intro _ _ _ _ _ msg _ decoded
    cases decoded

theorem naming_eq (address : Ipv4Addr) :
    naming (decoders address) gateway frames = some ("printer.local", .v4 address) := by
  have arp : namingOf (decoders address) gateway (header 6) = none := rfl
  have mdns : namingOf (decoders address) gateway (header 0) =
      some ("printer.local", .v4 address) := by
    have heard : (decoders address).frame (header 0) =
        some ⟨gateway, .udp (.v4 address) 5353 5353 []⟩ := rfl
    simp [namingOf, heard, decoders_mdns, mdnsPort]
  rw [naming, frames, List.filterMap_cons_none arp, List.filterMap_cons_some mdns, List.head?_cons]

theorem pairings_eq (address : Ipv4Addr) :
    pairings (decoders address) gateway frames = [.v4 #v[192, 168, 1, 1]] := rfl

def listened (address : Ipv4Addr) : Window :=
  (Window.new none (some "60:22:32:aa:25:21") none).absorbAll (decoders address) frames

theorem gateway_held (address : Ipv4Addr) : gateway ∈ (listened address).devices := by
  have octets : macOctets "60:22:32:aa:25:21" = some gateway := keyed
  have unicast : isUnicast gateway = true := by decide
  have arp : (decoders address).frame (header 6) =
      some ⟨gateway, .arp gateway #v[192, 168, 1, 1] false⟩ := rfl
  have udp : (decoders address).frame (header 0) =
      some ⟨gateway, .udp (.v4 address) 5353 5353 []⟩ := rfl
  have specified : (IpAddr.v4 #v[192, 168, 1, 1]).isUnspecified = false := by decide
  simp [listened, Window.absorbAll, frames, Window.absorb, arp, udp, Window.new, Window.isOwn,
    octets, Window.absorbHeard, specified, Window.sight, Window.device, unicast, maxDevices,
    Window.setDevice, pushCapped, maxIpsPerDevice, Window.absorbMdns, decoders_mdns, Window.name,
    Window.drop, mdnsPort]

end Forwarding

open Forwarding in
/-- A message from 10.0.0.5 that the gateway passed on names the gateway's row. -/
theorem gatewayRow_named_by_forwarded :
    ∃ row ∈ ((listened #v[10, 0, 0, 5]).flush 0).neighbors,
      row.mac = macText gateway ∧ row.hostname = some "printer.local" ∧
        ¬ RowClean (decoders #v[10, 0, 0, 5]) gateway frames row := by
  obtain ⟨row, listed, ofGateway⟩ := (row_exists_iff keyed (allowed #v[10, 0, 0, 5]) 0).mpr
    ⟨gateway_held _, by rw [pairings_eq]; exact List.cons_ne_nil _ _⟩
  have named := (row_address keyed (allowed #v[10, 0, 0, 5]) listed ofGateway).2
  rw [naming_eq] at named
  refine ⟨row, listed, ofGateway, named, ?_⟩
  intro clean
  obtain ⟨ip, paired, same⟩ := clean.name "printer.local" named
  rw [naming_eq] at same
  rw [pairings_eq, List.mem_singleton] at paired
  have foreign : IpAddr.v4 #v[10, 0, 0, 5] = .v4 #v[192, 168, 1, 1] :=
    (congrArg Prod.snd (Option.some.inj same)).trans paired
  exact absurd foreign (by decide)

open Forwarding in
/-- The gateway's own announcement names its row. -/
theorem gatewayRow_clean_own_name :
    ∃ row ∈ ((listened #v[192, 168, 1, 1]).flush 0).neighbors,
      row.mac = macText gateway ∧ RowClean (decoders #v[192, 168, 1, 1]) gateway frames row := by
  have clean : ∀ row ∈ ((listened #v[192, 168, 1, 1]).flush 0).neighbors,
      row.mac = macText gateway → RowClean (decoders #v[192, 168, 1, 1]) gateway frames row := by
    refine (gatewayRow_clean_iff keyed (allowed #v[192, 168, 1, 1]) 0).2.mpr ?_
    intro _ _ hostname ip named
    rw [naming_eq] at named
    rw [pairings_eq, List.mem_singleton]
    exact (congrArg Prod.snd (Option.some.inj named)).symm
  obtain ⟨row, listed, ofGateway⟩ := (row_exists_iff keyed (allowed #v[192, 168, 1, 1]) 0).mpr
    ⟨gateway_held _, by rw [pairings_eq]; exact List.cons_ne_nil _ _⟩
  exact ⟨row, listed, ofGateway, clean row listed ofGateway⟩

end NetObserver
