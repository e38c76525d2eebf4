import NetObserver.CveCheck

/-! The words that tell an unavailable rung, in the messages of a scan for CVEs. -/

namespace NetObserver

open StdText Infixes Lowercase

variable {k : Casing} {word : List Char}

/-- A text has a word in lower case. -/
def Speaks (k : Casing) (word text : List Char) : Prop := word.map some <:+: Lowercase.folded k text

/-- The words one of which every message of an unavailable rung has. -/
def telling : List (List Char) := [snapshotWord, droppedWords]

/-- Neither is in a text. -/
def Unspoken (k : Casing) (text : String) : Prop := ∀ word ∈ telling, ¬ Speaks k word text.toList

/-- What stands between the texts of a message is in no telling word. -/
theorem telling_free (tells : word ∈ telling) {c : Char}
    (breaks : (c.isDigit || "./,;()[]".toList.contains c) = true) : some c ∉ word.map some := by
  have all : (telling.all fun w => w.all fun d => !(d.isDigit || "./,;()[]".toList.contains d)) =
      true := rfl
  intro mem
  obtain ⟨d, held, same⟩ := List.mem_map.mp mem
  cases same
  have one := List.all_eq_true.mp (List.all_eq_true.mp all word tells) c held
  rw [breaks] at one
  cases one

theorem speaks_literal {text : List Char} (ascii_ : text.all isAscii = true)
    : Speaks k word text ↔ word <:+: text.map Char.toLower := by
  have same : Lowercase.folded k text = (text.map Char.toLower).map some := by
    rw [folded_ascii ascii_, List.map_map]
    rfl
  unfold Speaks
  rw [same]
  constructor
  · intro held
    obtain ⟨found, inside, eq⟩ := List.infix_map_iff.mp held
    rw [(List.map_injective_iff.mpr (Option.some_injective Char)) eq]
    exact inside
  · intro held
    exact held.map some

/-- A literal that has the word at no place. -/
theorem quiet_literal {text : List Char}
    (check : (text.all isAscii && !contains word (text.map Char.toLower)) = true) :
    ¬ Speaks k word text := by
  rw [Bool.and_eq_true] at check
  intro held
  have inside := contains_iff.mpr ((speaks_literal check.1).mp held)
  rw [inside] at check
  cases check.2

theorem Speaks.append_left {a : List Char} (held : Speaks k word a) (b : List Char) :
    Speaks k word (a ++ b) := by
  unfold Speaks
  rw [folded_append]
  exact held.trans (List.prefix_append _ _).isInfix

theorem Speaks.append_right {b : List Char} (a : List Char) (held : Speaks k word b) :
    Speaks k word (a ++ b) := by
  unfold Speaks
  rw [folded_append]
  exact held.trans (List.suffix_append _ _).isInfix

theorem break_lower {c : Char} (breaks : (c.isDigit || "./,;()[]".toList.contains c) = true) :
    isAscii c = true ∧ c.toLower = c := by
  rw [Bool.or_eq_true] at breaks
  rcases breaks with digit | sign
  · have range : c.val ≥ 48 ∧ c.val ≤ 57 := by
      unfold Char.isDigit at digit
      simpa using digit
    have high : c.toNat ≤ 57 := UInt32.le_iff_toNat_le.mp range.2
    have small : ¬ (c.val ≥ 'A'.val ∧ c.val ≤ 'Z'.val) := by
      intro capital
      have low : 'A'.toNat ≤ c.toNat := UInt32.le_iff_toNat_le.mp capital.1
      have value : 'A'.toNat = 65 := rfl
      omega
    have same : c.toLower = c := dif_neg small
    rw [isAscii, decide_eq_true_eq, same]
    exact ⟨by omega, rfl⟩
  · have all : ("./,;()[]".toList.all fun d => isAscii d && d.toLower == d) = true := rfl
    have one := List.all_eq_true.mp all c (List.contains_iff_mem.mp sign)
    rw [Bool.and_eq_true, beq_iff_eq] at one
    exact one

/-- A break keeps a telling word on one side of it. -/
theorem speaks_break (tells : word ∈ telling) {a b mid : List Char} (some_ : mid ≠ [])
    (breaks : ∀ c ∈ mid, (c.isDigit || "./,;()[]".toList.contains c) = true) :
    Speaks k word (a ++ (mid ++ b)) ↔ Speaks k word a ∨ Speaks k word b := by
  have small : mid.all isAscii = true :=
    List.all_eq_true.mpr fun c mem => (break_lower (breaks c mem)).1
  have lowered : Lowercase.folded k mid = mid.map some := by
    rw [folded_ascii small]
    apply List.map_congr_left
    intro c mem
    rw [(break_lower (breaks c mem)).2]
  unfold Speaks
  rw [folded_append, folded_append, lowered]
  apply infix_append_free_iff
  · intro none_
    exact some_ (List.map_eq_nil_iff.mp none_)
  · intro x mem
    obtain ⟨c, held, rfl⟩ := List.mem_map.mp mem
    exact telling_free tells (breaks c held)

theorem isDigit_repr (n : Nat) :
    ∀ c ∈ n.repr.toList, (c.isDigit || "./,;()[]".toList.contains c) = true := by
  intro c mem
  rw [DottedQuad.isDigit_of_mem_repr mem, Bool.true_or]

/-- A number breaks a text. -/
theorem quiet_number (tells : word ∈ telling) {a b : List Char} (n : Nat)
    (before : ¬ Speaks k word a) (behind : ¬ Speaks k word b) :
    ¬ Speaks k word (a ++ (n.repr.toList ++ b)) := by
  have some_ : n.repr.toList ≠ [] := by
    rw [Nat.toList_repr]
    exact Nat.toDigits_ne_nil
  rw [speaks_break tells some_ (isDigit_repr n), not_or]
  exact ⟨before, behind⟩

/-- So does a sign of punctuation. -/
theorem speaks_sign (tells : word ∈ telling) {a b : List Char} (c : Char)
    (sign : "./,;()[]".toList.contains c = true) :
    Speaks k word (a ++ c :: b) ↔ Speaks k word a ∨ Speaks k word b := by
  have breaks : ∀ d ∈ [c], (d.isDigit || "./,;()[]".toList.contains d) = true := by
    intro d mem
    rw [List.mem_singleton.mp mem, sign, Bool.or_true]
  exact speaks_break tells (List.cons_ne_nil c []) breaks

theorem quiet_sign (tells : word ∈ telling) {a b : List Char} (c : Char)
    (sign : "./,;()[]".toList.contains c = true) (before : ¬ Speaks k word a)
    (behind : ¬ Speaks k word b) : ¬ Speaks k word (a ++ c :: b) := by
  rw [speaks_sign tells c sign, not_or]
  exact ⟨before, behind⟩

/-- A literal that has neither word. -/
theorem quiet_text (tells : word ∈ telling) {text : List Char}
    (check : (telling.all fun w => text.all isAscii && !contains w (text.map Char.toLower)) = true) :
    ¬ Speaks k word text := quiet_literal (List.all_eq_true.mp check word tells)

theorem accountText_eq (raw persisted shown : Nat) (what why : String) :
    accountText raw persisted shown what why =
      if 0 < notPersisted raw persisted then
        raw.repr ++ " " ++ what ++ " (" ++ (notPersisted raw persisted).repr ++
          " not persisted: " ++ why ++ ")"
      else shown.repr ++ " " ++ what := rfl

/-- An account of open ports or of banners has neither. -/
theorem quiet_account (tells : word ∈ telling) (raw persisted shown : Nat) (what : String)
    {a : List Char} (before : ¬ Speaks k word a) (plain : ¬ Speaks k word (" " ++ what).toList)
    (opened : ¬ Speaks k word (" " ++ what ++ " (").toList) :
    ¬ Speaks k word (a ++ (accountText raw persisted shown what "no segment MAC").toList) := by
  have closed : ¬ Speaks k word " not persisted: no segment MAC)".toList := quiet_text tells rfl
  have whole : " not persisted: no segment MAC)".toList =
      " not persisted: ".toList ++ ("no segment MAC".toList ++ ")".toList) := rfl
  rw [accountText_eq]
  split
  · have counted := quiet_number tells raw before
      (quiet_number tells (notPersisted raw persisted) opened closed)
    rw [whole] at counted
    simp only [String.toList_append, List.append_assoc] at counted ⊢
    exact counted
  · have counted := quiet_number tells shown before plain
    simp only [String.toList_append, List.append_assoc] at counted ⊢
    exact counted

/-- What a message says behind the sweep's part. -/
def rungsText (openPorts ports banners grabbed : Nat) : String :=
  "; " ++ accountText openPorts ports openPorts "open ports" "no segment MAC" ++ ", " ++
    accountText banners grabbed banners "banners" "no segment MAC"

theorem quiet_rungs (tells : word ∈ telling) (openPorts ports banners grabbed : Nat) {a : List Char}
    (before : ¬ Speaks k word a) :
    ¬ Speaks k word (a ++ (rungsText openPorts ports banners grabbed).toList) := by
  have blank : ¬ Speaks k word [' '] := quiet_text tells rfl
  have first := quiet_account (k := k) tells openPorts ports openPorts "open ports" blank
    (quiet_text tells rfl) (quiet_text tells rfl)
  have second := quiet_account (k := k) tells banners grabbed banners "banners" blank
    (quiet_text tells rfl) (quiet_text tells rfl)
  have text : (rungsText openPorts ports banners grabbed).toList = ';' ::
      (([' '] ++ (accountText openPorts ports openPorts "open ports" "no segment MAC").toList) ++
        ',' :: ([' '] ++ (accountText banners grabbed banners "banners" "no segment MAC").toList)) := by
    unfold rungsText
    simp only [String.toList_append, List.append_assoc]
    rfl
  rw [text]
  exact quiet_sign tells ';' rfl before (quiet_sign tells ',' rfl first second)

/-- A dash breaks a text too. -/
theorem quiet_dash {a b : List Char} (before : ¬ Speaks k word a) (behind : ¬ Speaks k word b) :
    ¬ Speaks k word (a ++ '—' :: b) := by
  have dash : Lowercase.folded k ('—' :: b) = none :: Lowercase.folded k b := by
    rw [Lowercase.folded, List.flatMap_cons, k.ofPunctuation [] '—' [] (by decide) (by decide)]
    rfl
  have free : (none : Option Char) ∉ word.map some := by simp
  unfold Speaks at *
  rw [folded_append, dash, infix_append_cons_iff free, not_or]
  exact ⟨before, behind⟩

/-- The counts of the neighbours, and what the rungs say behind them. -/
theorem quiet_neighbours (tells : word ∈ telling) (found named openPorts ports banners grabbed : Nat)
    (what : String) {a : List Char} (before : ¬ Speaks k word a)
    (middle : ¬ Speaks k word what.toList) :
    ¬ Speaks k word (a ++ (found.repr.toList ++ (what.toList ++ (named.repr.toList ++
      (" named".toList ++ (rungsText openPorts ports banners grabbed).toList))))) :=
  quiet_number tells found before (quiet_number tells named middle
    (quiet_rungs tells openPorts ports banners grabbed (quiet_text tells rfl)))

section

variable (tsUs : Int) (networkKey : Option String) (iface : String) (sweep : SweepStats)
  (arp : List NeighborObs) (mdns : MdnsOutcome) (ps : PortScanOutcome) (bg : BannerGrabOutcome)
  (target : Option IpAddr)

/-- The message of a report behind the sweep's part. -/
theorem message_cases : ∃ found named ports grabbed : Nat,
    (composeScanReport tsUs networkKey iface sweep arp mdns (some ps) (some bg) target).message.toList =
      match sweep.refused with
      | none => "swept ".toList ++ (sweep.target.toList ++ (" (".toList ++ (sweep.sent.repr.toList ++
          ("/".toList ++ (sweep.total.repr.toList ++ (" probed): ".toList ++
            (found.repr.toList ++ (" neighbours, ".toList ++ (named.repr.toList ++
              (" named".toList ++ (rungsText ps.openPorts.length ports bg.banners.length
                grabbed).toList))))))))))
      | some r => ("sweep refused (".toList ++ r.toList) ++ ')' ::
          ("; nothing probed ".toList ++ '—' :: (" ".toList ++
            (found.repr.toList ++ (" neighbours from the cache, ".toList ++ (named.repr.toList ++
              (" named".toList ++ (rungsText ps.openPorts.length ports bg.banners.length
                grabbed).toList)))))) := by
  generalize named : joinNamesOntoArp (sweep.mark arp) mdns = names
  generalize rows : (ps.openPorts.filterMap fun f =>
    (f.owner ((sweep.mark arp).map (NeighborObs.nameFrom names)) target).map fun mac =>
      NeighborPort.mk networkKey mac f.ip.text f.port tsUs (f.banner (some bg))) = ports
  refine ⟨((sweep.mark arp).map (NeighborObs.nameFrom names)).length, names.length, ports.length,
    (ports.filter fun p => p.banner.isSome).length, ?_⟩
  cases refused : sweep.refused with
  | none =>
    simp only [composeScanReport, refused, named, rows, Option.map_some, Option.getD_some,
      Option.isSome_some, if_true, rungsText, String.toList_append, List.append_assoc]
    rfl
  | some r =>
    simp only [composeScanReport, refused, named, rows, Option.map_some, Option.getD_some,
      Option.isSome_some, if_true, rungsText, String.toList_append, List.append_assoc]
    rfl

variable {tsUs networkKey iface sweep arp mdns ps bg target}

/-- The message of a probe that went out has neither word. -/
theorem message_sent (tells : word ∈ telling) {v4 : Ipv4Addr} (sent : sweep.refused = none)
    (label : sweep.target = (IpAddr.v4 v4).text) : ¬ Speaks k word
      (composeScanReport tsUs networkKey iface sweep arp mdns (some ps) (some bg)
        target).message.toList := by
  obtain ⟨found, named, ports, grabbed, text⟩ :=
    message_cases tsUs networkKey iface sweep arp mdns ps bg target
  rw [sent] at text
  have breaks : ∀ c ∈ (IpAddr.v4 v4).text.toList,
      (c.isDigit || "./,;()[]".toList.contains c) = true := by
    intro c mem
    rcases DottedQuad.mem_text mem with digit | rfl
    · rw [digit, Bool.true_or]
    · rfl
  have some_ : (IpAddr.v4 v4).text.toList ≠ [] := by
    obtain ⟨p, q, r, s, octets⟩ := DottedQuad.exists_octets v4
    rw [DottedQuad.text_toList octets]
    exact List.append_ne_nil_of_right_ne_nil _ (List.cons_ne_nil _ _)
  have behind := quiet_number (k := k) tells sweep.sent (a := " (".toList) (quiet_text tells rfl)
    (quiet_number tells sweep.total (a := "/".toList) (quiet_text tells rfl)
      (quiet_neighbours tells found named ps.openPorts.length ports bg.banners.length grabbed
        " neighbours, " (a := " probed): ".toList) (quiet_text tells rfl)
        (quiet_text tells rfl)))
  rw [text, label, speaks_break tells some_ breaks, not_or]
  exact ⟨quiet_text tells rfl, behind⟩

/-- The message of a refused probe has the words of the refusal, and no other. -/
theorem message_refused (tells : word ∈ telling) {r : String} (refused : sweep.refused = some r) :
    Speaks k word (composeScanReport tsUs networkKey iface sweep arp mdns (some ps) (some bg)
      target).message.toList ↔ Speaks k word r.toList := by
  obtain ⟨found, named, ports, grabbed, text⟩ :=
    message_cases tsUs networkKey iface sweep arp mdns ps bg target
  rw [refused] at text
  have front : ¬ Speaks k word "sweep refused ".toList := quiet_text tells rfl
  have behind := quiet_dash (k := k) (a := "; nothing probed ".toList) (quiet_text tells rfl)
    (quiet_neighbours tells found named ps.openPorts.length ports bg.banners.length grabbed
      " neighbours from the cache, " (a := " ".toList) (quiet_text tells rfl)
      (quiet_text tells rfl))
  have opening : "sweep refused (".toList ++ r.toList =
      "sweep refused ".toList ++ '(' :: r.toList := rfl
  rw [text, speaks_sign tells ')' rfl, opening, speaks_sign tells '(' rfl]
  exact (or_iff_left behind).trans (or_iff_right front)

/-- It has the word `not` too, in its `nothing`. -/
theorem message_refused_not {r : String} (refused : sweep.refused = some r) :
    Speaks k "not".toList (composeScanReport tsUs networkKey iface sweep arp mdns (some ps)
      (some bg) target).message.toList := by
  obtain ⟨found, named, ports, grabbed, text⟩ :=
    message_cases tsUs networkKey iface sweep arp mdns ps bg target
  rw [refused] at text
  have said : Speaks k "not".toList "; nothing probed ".toList :=
    (speaks_literal rfl).mpr (contains_iff.mp rfl)
  rw [text, ← List.singleton_append]
  exact ((said.append_left _).append_right _).append_right _

end

/-- What the client reads the rung's fate from. -/
theorem cveRungUnavailable_iff (message : String) : cveRungUnavailable k message = true ↔
    (Speaks k snapshotWord message.toList ∧ (Speaks k "not".toList message.toList ∨
      Speaks k "without".toList message.toList ∨ Speaks k "unusable".toList message.toList)) ∨
      Speaks k droppedWords message.toList := by
  have said {word : List Char} (small : word.all isAscii = true) :
      contains word (lower k message.toList) = true ↔ Speaks k word message.toList :=
    contains_iff.trans (infix_lower_iff small)
  unfold cveRungUnavailable
  dsimp only
  rw [Bool.or_eq_true, Bool.and_eq_true, Bool.or_eq_true, Bool.or_eq_true, said rfl, said rfl,
    said rfl, said rfl, said rfl, or_assoc]

/-- A refused rung says so, and why. -/
theorem reply_dropped (r : ComposedReport) (why : String) :
    cveRungUnavailable k (r.reply ["cve (" ++ why ++ ")"]) = true := by
  have said : Speaks k droppedWords " [dropped: cve (".toList :=
    (speaks_literal rfl).mpr (contains_iff.mp rfl)
  have text : (r.reply ["cve (" ++ why ++ ")"]).toList = r.message.toList ++
      (" [dropped: cve (".toList ++ (why.toList ++ ")]".toList)) ++
      ((r.cveNote.map fun note => " [cve: " ++ note ++ "]").getD "").toList := by
    have joined : ", ".intercalate ["cve (" ++ why ++ ")"] = "cve (" ++ why ++ ")" := rfl
    unfold ComposedReport.reply
    rw [joined]
    simp only [List.isEmpty_cons, Bool.false_eq_true, if_false, String.toList_append,
      List.append_assoc]
    rfl
  rw [cveRungUnavailable_iff, text]
  exact Or.inr (((said.append_left _).append_right _).append_left _)

/-- The note of an unusable snapshot names the snapshot, and what it is without or does not do. -/
theorem note_speaks {loadFromDir : String → Except String VulnDb} {s : SystemScanner} {note : String}
    (unusable : s.snapshot loadFromDir = .unusable note) :
    Speaks k snapshotWord note.toList ∧
      (Speaks k "not".toList note.toList ∨ Speaks k "without".toList note.toList) := by
  have named : Speaks k snapshotWord "snapshot at ".toList :=
    (speaks_literal rfl).mpr (contains_iff.mp rfl)
  rcases note_cases unusable with rfl | ⟨dir, e, rfl⟩ | ⟨dir, rfl⟩
  · exact ⟨(speaks_literal rfl).mpr (contains_iff.mp rfl),
      Or.inr ((speaks_literal rfl).mpr (contains_iff.mp rfl))⟩
  · have unchecked : Speaks k "not".toList "; findings NOT checked".toList :=
      (speaks_literal rfl).mpr (contains_iff.mp rfl)
    simp only [String.toList_append]
    exact ⟨(((named.append_left _).append_left _).append_left _).append_left _,
      Or.inl (unchecked.append_right _)⟩
  · have wrong : Speaks k "not".toList " is empty or wrong layout; findings NOT checked (not a clean 'no vulnerabilities')".toList :=
      (speaks_literal rfl).mpr (contains_iff.mp rfl)
    simp only [String.toList_append]
    exact ⟨(named.append_left _).append_left _, Or.inl (wrong.append_right _)⟩

/-- So a rung that ran without a snapshot says that it did. -/
theorem reply_note {r : ComposedReport} {dropped : List String} {note : String}
    {loadFromDir : String → Except String VulnDb} {s : SystemScanner}
    (unusable : s.snapshot loadFromDir = .unusable note) (told : r.cveNote = some note) :
    cveRungUnavailable k (r.reply dropped) = true := by
  obtain ⟨named, said⟩ := note_speaks (k := k) unusable
  have inside {word : List Char} (held : Speaks k word note.toList) :
      Speaks k word (r.reply dropped).toList := by
    unfold ComposedReport.reply
    rw [told, Option.map_some, Option.getD_some]
    simp only [String.toList_append]
    exact ((held.append_right _).append_left _).append_right _
  rw [cveRungUnavailable_iff]
  refine Or.inl ⟨inside named, ?_⟩
  rcases said with not_ | without
  · exact Or.inl (inside not_)
  · exact Or.inr (Or.inl (inside without))

/-- A literal that cannot begin a telling word leaves what follows it to say one. -/
theorem speaks_behind (tells : word ∈ telling) {text : List Char} (small : text.all isAscii = true)
    (check : (telling.all fun w => !contains w (text.map Char.toLower) &&
      w.inits.all fun front => front.isEmpty || !front.isSuffixOf (text.map Char.toLower)) = true)
    (b : List Char) : Speaks k word (text ++ b) ↔ Speaks k word b := by
  have one := List.all_eq_true.mp check word tells
  rw [Bool.and_eq_true] at one
  have lowered : Lowercase.folded k text = (text.map Char.toLower).map some := by
    rw [folded_ascii small, List.map_map]
    rfl
  have absent : ¬ word.map some <:+: Lowercase.folded k text := by
    apply quiet_literal
    rw [small]
    exact one.1
  have apart : ∀ front ∈ (word.map some).inits, front ≠ [] → ¬ front <:+ Lowercase.folded k text := by
    intro front mem some_ suffix
    rw [List.mem_inits] at mem
    obtain ⟨f, begins, rfl⟩ := List.prefix_map_iff.mp mem
    rw [lowered] at suffix
    obtain ⟨f', ends, same⟩ := List.suffix_map_iff.mp suffix
    have eq : f = f' := List.map_injective_iff.mpr (Option.some_injective Char) same
    subst eq
    have two := List.all_eq_true.mp one.2 f ((List.mem_inits f word).mpr begins)
    have isSuffix : f.isSuffixOf (text.map Char.toLower) = true := List.isSuffixOf_iff_suffix.mpr ends
    rw [isSuffix, List.isEmpty_eq_false_iff.mpr (by rintro rfl; exact some_ rfl)] at two
    cases two
  unfold Speaks
  rw [folded_append]
  exact infix_append_apart_iff apart absent

/-- What the system's answers and the interface's name put into a refusal. -/
theorem refusal_speaks (tells : word ∈ telling) :
    (∀ e : String, Speaks k word ("no socket: " ++ e).toList ↔ Speaks k word e.toList) ∧
      ∀ iface : String, Speaks k word
        ("could not pin the probe to " ++ iface ++ "; the tunnel would have taken it").toList ↔
          Speaks k word iface.toList := by
  constructor
  · intro e
    rw [String.toList_append]
    exact speaks_behind tells rfl rfl e.toList
  · intro iface
    have quiet : ¬ Speaks k word " the tunnel would have taken it".toList := quiet_text tells rfl
    have text : ("could not pin the probe to " ++ iface ++
        "; the tunnel would have taken it").toList =
        ("could not pin the probe to ".toList ++ iface.toList) ++
          ';' :: " the tunnel would have taken it".toList := by
      simp only [String.toList_append]
      rfl
    rw [text, speaks_sign tells ';' rfl]
    exact (or_iff_left quiet).trans (speaks_behind tells rfl rfl iface.toList)

/-- The one text of a refused IPv6 target. -/
theorem quiet_ipv6 (tells : word ∈ telling) : ¬ Speaks k word
    "IPv6 targets are not ARP-resolvable; ports/banners/cve still ran".toList :=
  quiet_text tells rfl

end NetObserver
