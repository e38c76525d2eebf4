import NetObserver.AnnounceWindow
import NetObserver.OrderedMap

/-! What bounds a window of the announce listener, whatever frames it hears. -/

namespace NetObserver

open Machine

def Window.serviceCount (w : Window) (mac : MacAddr) : Nat :=
  (w.services.keys.filter fun key => key.mac = mac).length

/-- A device slot within its caps, of an address that may name a device here and has announced
`count` services. -/
structure DeviceKept (own : Option MacAddr) (count : Nat) (mac : MacAddr) (dev : Device) : Prop where
  unicast : isUnicast mac = true
  notOwn : own ≠ some mac
  ips : dev.ips.length ≤ maxIpsPerDevice
  services : dev.services = count
  cap : dev.services ≤ maxServicesPerDevice

/-- What a window keeps to while it absorbs frames. -/
structure WindowKept (own : Option MacAddr) (heard : Nat) (w : Window) : Prop where
  ownMac : w.ownMac = own
  heard : w.heard = heard
  devices : w.devices.size ≤ maxDevices
  pending : w.pendingNames.size ≤ maxPendingNames
  device : ∀ (mac : MacAddr) (dev : Device), w.devices[mac]? = some dev →
    DeviceKept own (w.serviceCount mac) mac dev
  service : ∀ (key : ServiceKey) (a : Announced), w.services[key]? = some a →
    key.mac ∈ w.devices ∧ a.ips.length ≤ maxIpsPerDevice
  name : ∀ mac, mac ∈ w.pendingNames → isUnicast mac = true ∧ own ≠ some mac

theorem pushCapped_length {ips : List IpAddr} {cap : Nat} (bound : ips.length ≤ cap) (ip : IpAddr) :
    (pushCapped ips ip cap).1.length ≤ cap := by
  unfold pushCapped
  split
  · exact bound
  · split
    · exact bound
    · rw [List.length_append]
      simp only [List.length_cons, List.length_nil]
      omega

section

variable {own : Option MacAddr} {heard : Nat} {w w' : Window}

theorem windowKept_new (own : Option MacAddr) (networkKey iface : Option String) :
    WindowKept own 0 (.new own networkKey iface) where
  ownMac := rfl
  heard := rfl
  devices := by simp [Window.new]
  pending := by simp [Window.new]
  device := by simp [Window.new]
  service := by simp [Window.new]
  name := by simp [Window.new]

namespace WindowKept

theorem drop (kept : WindowKept own heard w) (n : Nat) : WindowKept own heard (w.drop n) :=
  ⟨kept.ownMac, kept.heard, kept.devices, kept.pending, kept.device, kept.service, kept.name⟩

/-- A slot already there may be rewritten within its caps. -/
theorem setDevice (kept : WindowKept own heard w) {mac : MacAddr} {dev dev' : Device}
    (found : w.devices[mac]? = some dev) (services : dev'.services = dev.services)
    (ips : dev'.ips.length ≤ maxIpsPerDevice) : WindowKept own heard (w.setDevice mac dev') := by
  have mem : mac ∈ w.devices := OrderedMap.mem_of_getElem? found
  have old := kept.device mac dev found
  refine ⟨kept.ownMac, kept.heard, ?_, kept.pending, ?_, ?_, kept.name⟩
  · have same : (w.devices.insert mac dev').size = w.devices.size := by
      rw [Std.TreeMap.size_insert, if_pos (Std.TreeMap.mem_iff_contains.mp mem)]
    rw [Window.setDevice, same]
    exact kept.devices
  · intro mac' dev'' at_
    rcases OrderedMap.getElem?_insert_cases at_ with ⟨rfl, rfl⟩ | ⟨_, before⟩
    · exact ⟨old.unicast, old.notOwn, ips, services.trans old.services, services ▸ old.cap⟩
    · exact kept.device mac' dev'' before
  · intro key a at_
    obtain ⟨owner, bound⟩ := kept.service key a at_
    exact ⟨Std.TreeMap.mem_insert.mpr (.inr owner), bound⟩

/-- No service is known of an address without a slot. -/
theorem serviceCount_fresh (kept : WindowKept own heard w) {mac : MacAddr}
    (fresh : mac ∉ w.devices) : w.serviceCount mac = 0 := by
  refine List.length_eq_zero_iff.mpr (List.filter_eq_nil_iff.mpr fun key mem same => ?_)
  obtain ⟨a, at_⟩ := OrderedMap.getElem?_of_mem (Std.TreeMap.mem_keys.mp mem)
  have owner := (kept.service key a at_).1
  rw [of_decide_eq_true same] at owner
  exact fresh owner

theorem newDevice (kept : WindowKept own heard w) {mac : MacAddr} (fresh : mac ∉ w.devices)
    (room : w.devices.size < maxDevices) (unicast : isUnicast mac = true) (notOwn : own ≠ some mac) :
    WindowKept own heard (w.setDevice mac ⟨[], none, 0⟩) := by
  refine ⟨kept.ownMac, kept.heard, ?_, kept.pending, ?_, ?_, kept.name⟩
  · have grown : (w.devices.insert mac ⟨[], none, 0⟩).size = w.devices.size + 1 := by
      rw [Std.TreeMap.size_insert, if_neg fun known => fresh (Std.TreeMap.mem_iff_contains.mpr known)]
    rw [Window.setDevice, grown]
    exact room
  · intro mac' dev at_
    rcases OrderedMap.getElem?_insert_cases at_ with ⟨rfl, rfl⟩ | ⟨_, before⟩
    · exact ⟨unicast, notOwn, Nat.zero_le _, (kept.serviceCount_fresh fresh).symm, Nat.zero_le _⟩
    · exact kept.device mac' dev before
  · intro key a at_
    obtain ⟨owner, bound⟩ := kept.service key a at_
    exact ⟨Std.TreeMap.mem_insert.mpr (.inr owner), bound⟩

/-- What asking for a device's slot leaves, and the slot if there is one. -/
theorem slot (kept : WindowKept own heard w) {mac : MacAddr} (notOwn : own ≠ some mac) :
    WindowKept own heard (w.device mac).1 ∧ (w.device mac).1.services = w.services ∧
      ∀ dev, (w.device mac).2 = some dev → (w.device mac).1.devices[mac]? = some dev := by
  unfold Window.device
  split
  · exact ⟨kept, rfl, fun dev none => by cases none⟩
  · next unicast =>
    split
    next dev found => exact ⟨kept, rfl, fun dev' same => by cases same; exact found⟩
    next none =>
      split
      · exact ⟨kept.drop 1, rfl, fun dev none => by cases none⟩
      · next room =>
        have fresh : mac ∉ w.devices := by
          intro mem
          obtain ⟨dev, found⟩ := OrderedMap.getElem?_of_mem mem
          rw [none] at found
          cases found
        refine ⟨kept.newDevice fresh (by omega) (by simpa using unicast) notOwn, rfl, ?_⟩
        intro dev same
        cases same
        exact (OrderedMap.getElem?_insert mac mac _).trans (if_pos rfl)

theorem sight (kept : WindowKept own heard w) {mac : MacAddr} (notOwn : own ≠ some mac)
    (ip : IpAddr) : WindowKept own heard (w.sight mac ip) := by
  obtain ⟨kept', _, found⟩ := kept.slot notOwn
  unfold Window.sight
  split
  next w' eq =>
    rw [eq] at kept'
    exact kept'
  next w' dev eq =>
    rw [eq] at kept' found
    have at_ := found dev rfl
    have after : WindowKept own heard
        (w'.setDevice mac { dev with ips := (pushCapped dev.ips ip maxIpsPerDevice).1 }) :=
      kept'.setDevice at_ rfl (pushCapped_length (kept'.device mac dev at_).ips ip)
    dsimp only
    split
    · exact after
    · exact after.drop 1

theorem named (kept : WindowKept own heard w) {mac : MacAddr} (notOwn : own ≠ some mac)
    (hostname : String) : WindowKept own heard (w.name mac hostname) := by
  obtain ⟨kept', _, found⟩ := kept.slot notOwn
  unfold Window.name
  split
  next w' eq =>
    rw [eq] at kept'
    exact kept'
  next w' dev eq =>
    rw [eq] at kept' found
    have at_ := found dev rfl
    exact kept'.setDevice at_ rfl (kept'.device mac dev at_).ips

theorem serviceCount_known {key : ServiceKey} (known : key ∈ w.services) (a : Announced)
    (mac : MacAddr) :
    Window.serviceCount { w with services := w.services.insert key a } mac = w.serviceCount mac :=
  ((OrderedMap.keys_insert_of_mem known a).filter _).length_eq

theorem serviceCount_new {key : ServiceKey} (fresh : key ∉ w.services) (a : Announced)
    (mac : MacAddr) :
    Window.serviceCount { w with services := w.services.insert key a } mac =
      if key.mac = mac then w.serviceCount mac + 1 else w.serviceCount mac := by
  have keys := ((OrderedMap.keys_insert_of_not_mem fresh a).filter
    fun key => key.mac = mac).length_eq
  rw [List.filter_cons] at keys
  unfold Window.serviceCount
  rw [keys]
  by_cases same : key.mac = mac
  · rw [if_pos (by simpa using same), if_pos same, List.length_cons]
  · rw [if_neg (by simpa using same), if_neg same]

/-- The entry of a service already known may be rewritten within its cap. -/
theorem setService (kept : WindowKept own heard w) {key : ServiceKey} (known : key ∈ w.services)
    {a : Announced} (ips : a.ips.length ≤ maxIpsPerDevice) :
    WindowKept own heard { w with services := w.services.insert key a } := by
  refine ⟨kept.ownMac, kept.heard, kept.devices, kept.pending, ?_, ?_, kept.name⟩
  · intro mac dev at_
    rw [serviceCount_known known]
    exact kept.device mac dev at_
  · intro key' a' at_
    rcases OrderedMap.getElem?_insert_cases at_ with ⟨rfl, rfl⟩ | ⟨_, before⟩
    · obtain ⟨old, found⟩ := OrderedMap.getElem?_of_mem known
      exact ⟨(kept.service key old found).1, ips⟩
    · exact kept.service key' a' before

/-- A service heard for the first time, counted on its device. -/
theorem newService (kept : WindowKept own heard w) {key : ServiceKey} (fresh : key ∉ w.services)
    {dev : Device} (found : w.devices[key.mac]? = some dev)
    (room : dev.services < maxServicesPerDevice) {a : Announced}
    (ips : a.ips.length ≤ maxIpsPerDevice) :
    WindowKept own heard { w.setDevice key.mac { dev with services := dev.services + 1 } with
      services := w.services.insert key a } := by
  have mem : key.mac ∈ w.devices := OrderedMap.mem_of_getElem? found
  have old := kept.device key.mac dev found
  refine ⟨kept.ownMac, kept.heard, ?_, kept.pending, ?_, ?_, kept.name⟩
  · have same : (w.devices.insert key.mac { dev with services := dev.services + 1 }).size =
        w.devices.size := by
      rw [Std.TreeMap.size_insert, if_pos (Std.TreeMap.mem_iff_contains.mp mem)]
    rw [Window.setDevice, same]
    exact kept.devices
  · intro mac dev' at_
    have count : Window.serviceCount
        { w.setDevice key.mac { dev with services := dev.services + 1 } with
          services := w.services.insert key a } mac = _ := serviceCount_new fresh a mac
    rw [count]
    rcases OrderedMap.getElem?_insert_cases at_ with ⟨rfl, rfl⟩ | ⟨apart, before⟩
    · rw [if_pos rfl]
      exact ⟨old.unicast, old.notOwn, old.ips, congrArg (· + 1) old.services, room⟩
    · rw [if_neg apart]
      exact kept.device mac dev' before
  · intro key' a' at_
    rcases OrderedMap.getElem?_insert_cases at_ with ⟨rfl, rfl⟩ | ⟨_, before⟩
    · exact ⟨Std.TreeMap.mem_insert.mpr (.inr mem), ips⟩
    · obtain ⟨owner, bound⟩ := kept.service key' a' before
      exact ⟨Std.TreeMap.mem_insert.mpr (.inr owner), bound⟩

/-- What `recordService` leaves: one entry written within its cap, and perhaps a refusal counted. -/
theorem recordService_cases (kept : WindowKept own heard w) (key : ServiceKey) (ip : Option IpAddr)
    (kind : AnnounceKind) (detail : Option String) (u : Window)
    (services : u.services = w.services) :
    ∃ a : Announced, a.ips.length ≤ maxIpsPerDevice ∧
      (u.recordService key ip kind detail = { u with services := w.services.insert key a } ∨
        u.recordService key ip kind detail =
          Window.drop { u with services := w.services.insert key a } 1) := by
  have slot : (w.services[key]?.getD ⟨[], kind, detail⟩).ips.length ≤ maxIpsPerDevice := by
    cases found : w.services[key]? with
    | none => exact Nat.zero_le _
    | some a => exact (kept.service key a found).2
  unfold Window.recordService
  rw [services]
  cases ip with
  | none => exact ⟨_, slot, .inl rfl⟩
  | some ip =>
    refine ⟨{ w.services[key]?.getD ⟨[], kind, detail⟩ with
      ips := (pushCapped (w.services[key]?.getD ⟨[], kind, detail⟩).ips ip maxIpsPerDevice).1 },
      pushCapped_length slot ip, ?_⟩
    dsimp only
    split
    · exact .inl rfl
    · exact .inr rfl

theorem announce (kept : WindowKept own heard w) {mac : MacAddr} (notOwn : own ≠ some mac)
    (ip : Option IpAddr) (service : String) (kind : AnnounceKind) (detail : Option String) :
    WindowKept own heard (w.announce mac ip service kind detail) := by
  obtain ⟨kept', services, found⟩ := kept.slot notOwn
  unfold Window.announce
  dsimp only
  split
  next w' eq =>
    rw [eq] at kept'
    exact kept'
  next w' dev eq =>
    rw [eq] at kept' found services
    have at_ := found dev rfl
    split
    next isNew =>
      have fresh : (⟨mac, service⟩ : ServiceKey) ∉ w'.services := by
        intro known
        change w'.services = w.services at services
        rw [services] at known
        simp [Std.TreeMap.mem_iff_contains.mp known] at isNew
      split
      next => exact kept'.drop 1
      next room =>
        obtain ⟨a, ips, after | after⟩ := kept'.recordService_cases ⟨mac, service⟩ ip kind detail
          (w'.setDevice mac { dev with services := dev.services + 1 }) rfl
        · rw [after]
          exact kept'.newService fresh at_ (by omega) ips
        · rw [after]
          exact (kept'.newService fresh at_ (by omega) ips).drop 1
    next known =>
      have mem : (⟨mac, service⟩ : ServiceKey) ∈ w'.services := by
        change w'.services = w.services at services
        rw [services]
        exact Std.TreeMap.mem_iff_contains.mpr (by simpa using known)
      obtain ⟨a, ips, after | after⟩ :=
        kept'.recordService_cases ⟨mac, service⟩ ip kind detail w' rfl
      · rw [after]
        exact kept'.setService mem ips
      · rw [after]
        exact (kept'.setService mem ips).drop 1

theorem rememberName (kept : WindowKept own heard w) {client : MacAddr} (notOwn : own ≠ some client)
    (hostname : String) : WindowKept own heard (w.rememberName client hostname) := by
  unfold Window.rememberName
  split
  · exact kept
  next eligible =>
    split
    · exact kept.drop 1
    next room =>
      simp only [Bool.or_eq_true, Bool.not_eq_true', not_or, Bool.not_eq_false,
        Bool.not_eq_true] at eligible
      refine ⟨kept.ownMac, kept.heard, kept.devices, ?_, kept.device, kept.service, ?_⟩
      · have grown := Std.TreeMap.size_insert_le (t := w.pendingNames) (k := client) (v := hostname)
        change (w.pendingNames.insert client hostname).size ≤ _
        omega
      · intro mac mem
        rcases Std.TreeMap.mem_insert.mp mem with same | old
        · rw [← Std.compare_eq_iff_eq.mp same]
          exact ⟨eligible.1, notOwn⟩
        · exact kept.name mac old

theorem forgetName (kept : WindowKept own heard w) (client : MacAddr) :
    WindowKept own heard { w with pendingNames := w.pendingNames.erase client } := by
  refine ⟨kept.ownMac, kept.heard, kept.devices, ?_, kept.device, kept.service, ?_⟩
  · exact Nat.le_trans Std.TreeMap.size_erase_le kept.pending
  · intro mac mem
    exact kept.name mac (Std.TreeMap.mem_erase.mp mem).2

theorem notOwn_of (kept : WindowKept own heard w) {mac : MacAddr} (other : w.isOwn mac = false) :
    own ≠ some mac := by
  rintro rfl
  simp [Window.isOwn, kept.ownMac] at other

theorem absorbMdns (kept : WindowKept own heard w) (c : Decoders) {srcMac : MacAddr}
    (notOwn : own ≠ some srcMac) (srcIp : IpAddr) (payload : List UInt8) :
    WindowKept own heard (w.absorbMdns c srcMac srcIp payload) := by
  have services (facts : List (String × Option String)) {u : Window}
      (kept : WindowKept own heard u) : WindowKept own heard (facts.foldl
        (fun w service => w.announce srcMac (some srcIp) service.1 .mdns service.2) u) := by
    induction facts generalizing u with
    | nil => exact kept
    | cons fact facts ih => exact ih (kept.announce notOwn _ _ _ _)
  unfold Window.absorbMdns
  split
  · exact kept
  next facts _ =>
    refine (services facts.services ?_).drop _
    split
    · exact kept.named notOwn _
    · exact kept

theorem absorbSsdp (kept : WindowKept own heard w) (c : Decoders) {srcMac : MacAddr}
    (notOwn : own ≠ some srcMac) (srcIp : IpAddr) (payload : List UInt8) :
    WindowKept own heard (w.absorbSsdp c srcMac srcIp payload) := by
  unfold Window.absorbSsdp
  split
  · exact kept
  · exact kept.announce notOwn _ _ _ _

theorem absorbRequest (kept : WindowKept own heard w) (msg : DhcpMessage) :
    WindowKept own heard (w.absorbRequest msg) := by
  unfold Window.absorbRequest
  split
  · exact kept
  next other =>
    have notOwn := kept.notOwn_of (Bool.eq_false_iff.mpr other)
    dsimp only
    split
    on_goal 1 => refine WindowKept.announce ?_ notOwn _ _ _ _
    all_goals
      split
      · exact (kept.sight notOwn _).named notOwn _
      · exact kept.sight notOwn _
      · exact kept.rememberName notOwn _
      · exact kept

theorem absorbReply (kept : WindowKept own heard w) {srcMac : MacAddr}
    (notOwn : own ≠ some srcMac) (srcIp : IpAddr) (msg : DhcpMessage) :
    WindowKept own heard (w.absorbReply srcMac srcIp msg) := by
  have server := kept.announce notOwn ((msg.serverId.map IpAddr.v4).or (some srcIp))
    dhcpServerService .dhcp msg.messageType
  unfold Window.absorbReply
  dsimp only
  split
  next => exact server
  next ip _ =>
    split
    next acknowledged =>
      simp only [Bool.and_eq_true, Bool.not_eq_true'] at acknowledged
      have client := server.notOwn_of acknowledged.2
      have sighted := server.sight client (.v4 ip)
      split
      · exact (sighted.forgetName _).named client _
      · exact sighted
    next => exact server

theorem absorbHeard (kept : WindowKept own heard w) (c : Decoders) {frame : Frame}
    (notOwn : own ≠ some frame.srcMac) : WindowKept own heard (w.absorbHeard c frame) := by
  unfold Window.absorbHeard
  dsimp only
  split
  next senderMac senderIp reply _ =>
    split
    next pairs =>
      simp only [Bool.and_eq_true, Bool.not_eq_true'] at pairs
      exact kept.sight (kept.notOwn_of pairs.1.1) _
    next => exact kept
  next srcIp srcPort dstPort payload _ =>
    have sighted : WindowKept own heard (if (addressable srcIp &&
        !(some frame.srcMac == w.gatewayMac)) = true then w.sight frame.srcMac srcIp else w) := by
      split
      · exact kept.sight notOwn _
      · exact kept
    split
    · exact sighted.absorbMdns c notOwn _ _
    · split
      · exact sighted.absorbSsdp c notOwn _ _
      · split
        · unfold Window.absorbDhcp
          split
          · exact sighted
          · split
            · exact sighted.absorbRequest _
            · exact sighted.absorbReply notOwn _ _
        · exact sighted
  next => exact kept

theorem absorb (kept : WindowKept own heard w) (c : Decoders) (bytes : List UInt8) :
    WindowKept own (satAddU32 heard 1) (w.absorb c bytes) := by
  have counted : WindowKept own (satAddU32 heard 1) { w with heard := satAddU32 w.heard 1 } :=
    ⟨kept.ownMac, congrArg (satAddU32 · 1) kept.heard, kept.devices, kept.pending, kept.device,
      kept.service, kept.name⟩
  unfold Window.absorb
  dsimp only
  split
  · exact ⟨counted.ownMac, counted.heard, counted.devices, counted.pending, counted.device,
      counted.service, counted.name⟩
  · split
    · exact ⟨counted.ownMac, counted.heard, counted.devices, counted.pending, counted.device,
        counted.service, counted.name⟩
    next other => exact counted.absorbHeard c (counted.notOwn_of (Bool.eq_false_iff.mpr other))

end WindowKept

end

theorem preferred_mem {ips : List IpAddr} {ip : IpAddr} (chosen : preferred ips = some ip) :
    ip ∈ ips := by
  induction ips generalizing ip with
  | nil => cases chosen
  | cons first rest ih =>
    unfold preferred at chosen
    split at chosen
    next other found =>
      split at chosen
      · cases chosen
        exact List.mem_cons_self ..
      · cases chosen
        exact List.mem_cons_of_mem _ (ih found)
    next =>
      cases chosen
      exact List.mem_cons_self ..

theorem preferred_none {ips : List IpAddr} (none : preferred ips = none) : ips = [] := by
  cases ips with
  | nil => rfl
  | cons first rest =>
    unfold preferred at none
    split at none
    · split at none <;> cases none
    · cases none

def Window.absorbAll (c : Decoders) (w : Window) (frames : List (List UInt8)) : Window :=
  frames.foldl (Window.absorb c) w

theorem windowKept_absorbAll (c : Decoders) (own : Option MacAddr) (networkKey iface : Option String)
    (frames : List (List UInt8)) :
    WindowKept own (min frames.length u32Max)
      ((Window.new own networkKey iface).absorbAll c frames) := by
  have grow (frames : List (List UInt8)) {heard : Nat} {w : Window} (bound : heard ≤ u32Max)
      (kept : WindowKept own heard w) :
      WindowKept own (min (heard + frames.length) u32Max) (w.absorbAll c frames) := by
    induction frames generalizing heard w with
    | nil =>
      rw [List.length_nil, Nat.add_zero, Nat.min_eq_left bound]
      exact kept
    | cons bytes frames ih =>
      have rest : WindowKept own (min (satAddU32 heard 1 + frames.length) u32Max)
          ((w.absorb c bytes).absorbAll c frames) :=
        ih (Nat.min_le_right _ _) (kept.absorb c bytes)
      have count : min (satAddU32 heard 1 + frames.length) u32Max =
          min (heard + (bytes :: frames).length) u32Max := by
        rw [List.length_cons]
        unfold satAddU32
        omega
      rw [count] at rest
      exact rest
  have whole := grow frames (Nat.zero_le _) (windowKept_new own networkKey iface)
  rwa [Nat.zero_add] at whole

/-- The bounds of a window that absorbed `frames` frames, and whose its entries are. -/
structure WindowBounded (own : Option MacAddr) (frames : Nat) (w : Window) : Prop where
  devices : w.devices.size ≤ maxDevices
  deviceIps : ∀ (mac : MacAddr) (dev : Device), w.devices[mac]? = some dev →
    dev.ips.length ≤ maxIpsPerDevice ∧ dev.services = w.serviceCount mac
  serviceIps : ∀ (key : ServiceKey) (a : Announced), w.services[key]? = some a →
    a.ips.length ≤ maxIpsPerDevice
  services : ∀ mac, w.serviceCount mac ≤ maxServicesPerDevice
  pending : w.pendingNames.size ≤ maxPendingNames
  owned : ∀ key : ServiceKey, key ∈ w.services → key.mac ∈ w.devices ∧ isUnicast key.mac = true
  notOwn : ∀ mac, own = some mac →
    mac ∉ w.devices ∧ w.serviceCount mac = 0 ∧ mac ∉ w.pendingNames
  heard : w.heardFrames.total = min frames u32Max

theorem WindowKept.bounded {own : Option MacAddr} {frames : Nat} {w : Window}
    (kept : WindowKept own (min frames u32Max) w) : WindowBounded own frames w := by
  have absent (mac : MacAddr) (same : own = some mac) : mac ∉ w.devices := by
    intro mem
    obtain ⟨dev, found⟩ := OrderedMap.getElem?_of_mem mem
    exact (kept.device mac dev found).notOwn same
  refine ⟨kept.devices, ?_, ?_, ?_, kept.pending, ?_, ?_, kept.heard⟩
  · intro mac dev found
    exact ⟨(kept.device mac dev found).ips, (kept.device mac dev found).services⟩
  · intro key a found
    exact (kept.service key a found).2
  · intro mac
    by_cases known : mac ∈ w.devices
    · obtain ⟨dev, found⟩ := OrderedMap.getElem?_of_mem known
      have slot := kept.device mac dev found
      rw [← slot.services]
      exact slot.cap
    · rw [kept.serviceCount_fresh known]
      exact Nat.zero_le _
  · intro key mem
    obtain ⟨a, found⟩ := OrderedMap.getElem?_of_mem mem
    have owner := (kept.service key a found).1
    obtain ⟨dev, slot⟩ := OrderedMap.getElem?_of_mem owner
    exact ⟨owner, (kept.device key.mac dev slot).unicast⟩
  · intro mac same
    exact ⟨absent mac same, kept.serviceCount_fresh (absent mac same),
      fun mem => (kept.name mac mem).2 same⟩

/-- The rows of a flush: one for each address, one for each service of an address. -/
structure FlushLists (w : Window) (flushed : NeighborsSample) : Prop where
  macs : (flushed.neighbors.map NeighborObs.mac).Nodup
  services : (flushed.services.map fun s => (s.mac, s.service)).Nodup
  neighbor : ∀ n ∈ flushed.neighbors, ∃ (mac : MacAddr) (dev : Device),
    w.devices[mac]? = some dev ∧ n.mac = macText mac ∧ ∃ ip ∈ dev.ips, n.ip = ip.text
  unlisted : ∀ (mac : MacAddr) (dev : Device), w.devices[mac]? = some dev →
    macText mac ∉ flushed.neighbors.map NeighborObs.mac → dev.ips = []
  service : ∀ s ∈ flushed.services, ∃ (key : ServiceKey) (a : Announced),
    w.services[key]? = some a ∧ s.mac = macText key.mac ∧ s.service = key.service ∧
      ((s.ip = none ∧ a.ips = []) ∨ ∃ ip ∈ a.ips, s.ip = some ip.text)
  listed : ∀ (key : ServiceKey), key ∈ w.services →
    (macText key.mac, key.service) ∈ flushed.services.map fun s => (s.mac, s.service)

theorem flushLists (w : Window) (tsUs : Int) : FlushLists w (w.flush tsUs) := by
  have entry {mac : MacAddr} {dev : Device} :
      (mac, dev) ∈ w.devices.toList ↔ w.devices[mac]? = some dev :=
    Std.TreeMap.mem_toList_iff_getElem?_eq_some
  have record {key : ServiceKey} {a : Announced} :
      (key, a) ∈ w.services.toList ↔ w.services[key]? = some a :=
    Std.TreeMap.mem_toList_iff_getElem?_eq_some
  refine ⟨?_, ?_, ?_, ?_, ?_, ?_⟩
  · have texts : ((w.devices.toList.map Prod.fst).map macText).Nodup :=
      (OrderedMap.toList_keys_nodup w.devices).map macText_injective
    refine List.Nodup.sublist ?_ texts
    change (List.map NeighborObs.mac (w.devices.toList.filterMap Window.neighborRow)).Sublist _
    rw [List.map_map]
    induction w.devices.toList with
    | nil => exact List.Sublist.slnil
    | cons e rest ih =>
      rw [List.filterMap_cons, List.map_cons]
      cases row : Window.neighborRow e with
      | none => exact ih.cons _
      | some n =>
        obtain ⟨ip, _, rfl⟩ := Option.map_eq_some_iff.mp row
        exact ih.cons_cons _
  · change (List.map _ (w.services.toList.map Window.serviceRow)).Nodup
    have texts : ((w.services.toList.map Prod.fst).map
        fun key => (macText key.mac, key.service)).Nodup := by
      refine (OrderedMap.toList_keys_nodup w.services).map ?_
      rintro ⟨mac, service⟩ ⟨mac', service'⟩ same
      have macs : mac = mac' := macText_injective (congrArg Prod.fst same)
      have services : service = service' := congrArg Prod.snd same
      rw [macs, services]
    rw [List.map_map] at texts ⊢
    exact texts
  · intro n mem
    obtain ⟨⟨mac, dev⟩, held, row⟩ := List.mem_filterMap.mp mem
    obtain ⟨ip, chosen, rfl⟩ := Option.map_eq_some_iff.mp row
    exact ⟨mac, dev, entry.mp held, rfl, ip, preferred_mem chosen, rfl⟩
  · intro mac dev found unlisted
    cases chosen : preferred dev.ips with
    | none => exact preferred_none chosen
    | some ip =>
      refine absurd ?_ unlisted
      refine List.mem_map.mpr ⟨⟨macText mac, ip.text, .announce, dev.hostname, .unknown⟩, ?_, rfl⟩
      refine List.mem_filterMap.mpr ⟨(mac, dev), entry.mpr found, ?_⟩
      simp [Window.neighborRow, chosen]
  · intro s mem
    obtain ⟨⟨key, a⟩, held, rfl⟩ := List.mem_map.mp mem
    refine ⟨key, a, record.mp held, rfl, rfl, ?_⟩
    cases chosen : preferred a.ips with
    | none => exact .inl ⟨by simp [Window.serviceRow, chosen], preferred_none chosen⟩
    | some ip => exact .inr ⟨ip, preferred_mem chosen, by simp [Window.serviceRow, chosen]⟩
  · intro key mem
    obtain ⟨a, found⟩ := OrderedMap.getElem?_of_mem mem
    exact List.mem_map.mpr ⟨_, List.mem_map.mpr ⟨(key, a), record.mpr found, rfl⟩, rfl⟩

/-- Whatever frames a window absorbs and however they are decoded, it stays within its caps and
keeps this machine's own address out, and its flush lists each address and service once. -/
theorem window_bounded (c : Decoders) (own : Option MacAddr) (networkKey iface : Option String)
    (frames : List (List UInt8)) (tsUs : Int) :
    WindowBounded own frames.length ((Window.new own networkKey iface).absorbAll c frames) ∧
      FlushLists ((Window.new own networkKey iface).absorbAll c frames)
        (((Window.new own networkKey iface).absorbAll c frames).flush tsUs) :=
  ⟨(windowKept_absorbAll c own networkKey iface frames).bounded, flushLists _ tsUs⟩

def discoveringMac : MacAddr := #v[0xa4, 0x83, 0xe7, 0x1b, 0x2c, 0x3d]

/-- Every frame is a client's DISCOVER, from no address, with its vendor class. -/
def discoverDecoders : Decoders where
  frame := fun _ => some ⟨discoveringMac, .udp (.v4 #v[0, 0, 0, 0]) 68 67 []⟩
  mdns := fun _ _ => none
  ssdp := fun _ => none
  dhcp := fun _ => some ⟨.request, discoveringMac, none, none, some "discover", none,
    some "MSFT 5.0", none⟩

/-- A client's vendor class is listed with no address, and the count of heard frames stays at its
largest value. -/
theorem listed_without_address :
    (∃ s ∈ (((Window.new none none none).absorbAll discoverDecoders [[]]).flush 0).services,
      s.ip = none) ∧
    ∃ frames : List (List UInt8),
      ((Window.new none none none).absorbAll discoverDecoders frames).heardFrames.total ≠
        frames.length := by
  constructor
  · let w := (Window.new none none none).absorbAll discoverDecoders [[]]
    have stored : w.services[(⟨discoveringMac, dhcpVendorClassService⟩ : ServiceKey)]? =
        some ⟨[], .dhcp, some "MSFT 5.0"⟩ := by
      have unicast : isUnicast discoveringMac = true := rfl
      have nowhere : addressable (.v4 #v[0, 0, 0, 0]) = false := rfl
      simp [w, Window.absorbAll, Window.absorb, Window.new, discoverDecoders, Window.isOwn,
        Window.absorbHeard, nowhere, mdnsPort, ssdpPort, dhcpServerPort, Window.absorbDhcp,
        Window.absorbRequest, Window.announce, Window.device, unicast, Window.setDevice,
        Window.recordService, maxDevices, maxServicesPerDevice]
    refine ⟨Window.serviceRow (⟨discoveringMac, dhcpVendorClassService⟩, ⟨[], .dhcp, some "MSFT 5.0"⟩),
      ?_, rfl⟩
    exact List.mem_map.mpr ⟨_, Std.TreeMap.mem_toList_iff_getElem?_eq_some.mpr stored, rfl⟩
  · let frames : List (List UInt8) := List.replicate (2 ^ 32) []
    have count : frames.length = 2 ^ 32 := List.length_replicate ..
    have kept := windowKept_absorbAll discoverDecoders none none none frames
    rw [count] at kept
    refine ⟨frames, ?_⟩
    rw [Window.heardFrames, kept.heard, count]
    simp [u32Max]

end NetObserver
