import NetObserver.LogRendering

/-! A written line and its parse: what any parse leaves of a line's text, what the scan for colours
leaves of a written one, and which lines come back. -/

namespace NetObserver
namespace SingboxLog

open Machine Calendar

section

variable (tsUs : Int) (level : Level)

/-- The tag as the brackets hold it. -/
def unbracket (tag : List Char) : List Char :=
  if tag.getLast? = some ']' then tag.dropLast else tag

/-- A message is bare, or has a first token that ends with a colon. -/
theorem parseMessage_cases (rest : List Char) :
    parseMessage tsUs level rest = ⟨tsUs, level, [], none, rest⟩ ∨
      ∃ head message, ' ' ∉ head ∧
        (rest = head ++ [':'] ∧ message = [] ∨ rest = head ++ ':' :: ' ' :: message) ∧
        parseMessage tsUs level rest = ⟨tsUs, level, (StdText.splitOnce '[' head).1,
          (StdText.splitOnce '[' head).2.map unbracket, message⟩ := by
  have colon {head : List Char} (ends : head.getLast? = some ':') :
      head = head.dropLast ++ [':'] := (List.dropLast_append_getLast? ':' ends).symm
  unfold parseMessage
  rcases StdText.splitOnce_cases ' ' rest with ⟨absent, split⟩ | ⟨head, message, absent, rfl, split⟩
  · rw [split]
    dsimp only
    split
    next ends =>
      refine .inr ⟨rest.dropLast, [], fun mem => absent ((List.dropLast_sublist _).mem mem),
        .inl ⟨colon ends, rfl⟩, rfl⟩
    next => exact .inl rfl
  · rw [split]
    dsimp only
    split
    next ends =>
      refine .inr ⟨head.dropLast, message, fun mem => absent ((List.dropLast_sublist _).mem mem),
        .inr ?_, rfl⟩
      nth_rewrite 1 [colon ends]
      simp
    next => exact .inl rfl

theorem parseMessage_level (rest : List Char) : (parseMessage tsUs level rest).level = level := by
  rcases parseMessage_cases tsUs level rest with bare | ⟨_, _, _, _, whole⟩
  · rw [bare]
  · rw [whole]

theorem message_suffix (rest : List Char) : (parseMessage tsUs level rest).message <:+ rest := by
  rcases parseMessage_cases tsUs level rest with bare | ⟨head, message, _, ⟨rfl, rfl⟩ | rfl, whole⟩
  · have same : (parseMessage tsUs level rest).message = rest := congrArg LogLine.message bare
    exact same.symm ▸ List.suffix_refl rest
  · rw [whole]
    exact List.nil_suffix
  · rw [whole]
    exact ⟨head ++ [':', ' '], by simp⟩

/-- The component and the tag are of the rest's own characters, and the tag has no space. -/
theorem parseMessage_texts (rest : List Char) :
    (∀ c ∈ (parseMessage tsUs level rest).component, c ∈ rest) ∧
      ∀ t ∈ (parseMessage tsUs level rest).tag, (∀ c ∈ t, c ∈ rest) ∧ ' ' ∉ t := by
  rcases parseMessage_cases tsUs level rest with bare | ⟨head, message, spaceless, shape, whole⟩
  · rw [bare]
    exact ⟨fun c mem => absurd mem List.not_mem_nil, fun t none_ => by cases none_⟩
  · have within : ∀ c ∈ head, c ∈ rest := by
      intro c mem
      rcases shape with ⟨rfl, _⟩ | rfl
      · exact List.mem_append_left _ mem
      · exact List.mem_append_left _ mem
    rw [whole]
    dsimp only
    rcases StdText.splitOnce_cases '[' head with ⟨_, split⟩ | ⟨name, tag, _, rfl, split⟩
    · rw [split]
      exact ⟨within, fun t none_ => by cases none_⟩
    · rw [split]
      refine ⟨fun c mem => within c (List.mem_append_left _ mem), fun t some_ => ?_⟩
      cases some_
      have inside : ∀ c ∈ unbracket tag, c ∈ tag := by
        intro c mem
        unfold unbracket at mem
        split at mem
        next => exact (List.dropLast_sublist _).mem mem
        next => exact mem
      have behind : ∀ c ∈ unbracket tag, c ∈ name ++ '[' :: tag := fun c mem =>
        List.mem_append_right _ (List.mem_cons_of_mem _ (inside c mem))
      exact ⟨fun c mem => within c (behind c mem), fun mem => spaceless (behind ' ' mem)⟩

end

theorem trimStart_suffix (s : List Char) : StdText.trimStart s <:+ s := List.dropWhile_suffix _

theorem trimStart_head {s : List Char} {c : Char} (first : (StdText.trimStart s).head? = some c) :
    Dhcp.isWhitespace c = false := by
  have stops := List.head?_dropWhile_not Dhcp.isWhitespace s
  unfold StdText.trimStart at first
  rw [first] at stops
  exact stops

theorem trimStart_eq_self {s : List Char} (shown : ∀ c ∈ s.head?, Dhcp.isWhitespace c = false) :
    StdText.trimStart s = s := by
  cases s with
  | nil => rfl
  | cons c rest => exact List.dropWhile_cons_of_neg (by simp [shown c rfl])

theorem skipConnection_suffix {s rest : List Char} (skipped : skipConnection s = some rest) :
    rest <:+ s := by
  unfold skipConnection at skipped
  split at skipped
  next behind =>
    obtain ⟨inner, split, rfl⟩ := Option.map_eq_some_iff.mp skipped
    exact ((trimStart_suffix inner).trans (StdText.splitOnce_suffix split)).trans
      (List.suffix_cons '[' behind)
  next =>
    cases skipped
    exact List.suffix_refl _

/-- A connection field is not empty. -/
theorem skipConnection_shorter {behind rest : List Char}
    (skipped : skipConnection ('[' :: behind) = some rest) : rest.length ≤ behind.length := by
  obtain ⟨inner, split, rfl⟩ := Option.map_eq_some_iff.mp skipped
  exact ((trimStart_suffix inner).trans (StdText.splitOnce_suffix split)).length_le

theorem skipConnection_unopened {s : List Char} (unopened : s.head? ≠ some '[') :
    skipConnection s = some s := by
  unfold skipConnection
  split
  next => exact absurd rfl unopened
  next => rfl

theorem skipConnection_head {s rest : List Char}
    (skipped : skipConnection (StdText.trimStart s) = some rest) :
    ∀ c ∈ rest.head?, Dhcp.isWhitespace c = false := by
  intro c first
  unfold skipConnection at skipped
  split at skipped
  next behind =>
    obtain ⟨inner, _, rfl⟩ := Option.map_eq_some_iff.mp skipped
    exact trimStart_head first
  next =>
    cases skipped
    exact trimStart_head first

/-- The level is the first token of an end of the line, and what is behind it is the rest. -/
theorem parseOpening_last {line behind : List Char} {o : Opening}
    (parsed : parseOpening line = some (o, behind)) :
    ∃ last, last <:+ line ∧ Level.parse (StdText.splitOnce ' ' last).1 = some o.level ∧
      behind = (StdText.splitOnce ' ' last).2.getD [] := by
  unfold parseOpening at parsed
  obtain ⟨_, _, parsed⟩ := Option.bind_eq_some_iff.mp parsed
  obtain ⟨first, firstBehind, parsed⟩ := Option.bind_eq_some_iff.mp parsed
  obtain ⟨_, _, parsed⟩ := Option.bind_eq_some_iff.mp parsed
  obtain ⟨second, secondBehind, parsed⟩ := Option.bind_eq_some_iff.mp parsed
  obtain ⟨_, _, parsed⟩ := Option.bind_eq_some_iff.mp parsed
  obtain ⟨last, lastBehind, parsed⟩ := Option.bind_eq_some_iff.mp parsed
  obtain ⟨_, level, parsed⟩ := Option.bind_eq_some_iff.mp parsed
  cases parsed
  have firstSuffix := StdText.splitOnce_suffix firstBehind
  have secondSuffix := StdText.splitOnce_suffix secondBehind
  have lastSuffix := StdText.splitOnce_suffix lastBehind
  exact ⟨last, lastSuffix.trans (secondSuffix.trans firstSuffix), level, rfl⟩

theorem parseOpening_suffix {line behind : List Char} {o : Opening}
    (parsed : parseOpening line = some (o, behind)) : behind <:+ line := by
  obtain ⟨last, suffix, _, rfl⟩ := parseOpening_last parsed
  cases split : (StdText.splitOnce ' ' last).2 with
  | none => exact List.nil_suffix
  | some behind => exact (StdText.splitOnce_suffix split).trans suffix

theorem parseLine_fits {raw : List Char} {l : LogLine} (parsed : parseLine raw = some l) :
    FitsI64 l.tsUs := by
  unfold parseLine parseLineWith at parsed
  split at parsed
  next => cases parsed
  next o behind _ =>
    have wrapped : ∃ x, (o.tsUs fun x => (pure (wrapI64 x) : Id Int)).run = wrapI64 x := ⟨_, rfl⟩
    obtain ⟨x, wrapped⟩ := wrapped
    have same : l.tsUs = wrapI64 x := by
      rw [← wrapped]
      exact parseBody_tsUs parsed
    rw [same]
    unfold FitsI64 wrapI64 i64Min i64Max
    omega

/-- What a parsed line's texts are made of: an end of the line's text. Its level stands in front. -/
theorem parseLine_rest {raw : List Char} {l : LogLine} (parsed : parseLine raw = some l) :
    ∃ tsUs level rest, rest <:+ lineText raw ∧ level.name <:+: lineText raw ∧
      l = parseMessage tsUs level rest := by
  unfold parseLine parseLineWith at parsed
  split at parsed
  next => cases parsed
  next o behind opened =>
    obtain ⟨rest, skipped, same⟩ := Option.map_eq_some_iff.mp parsed
    have suffix : rest <:+ lineText raw :=
      (skipConnection_suffix skipped).trans
        ((trimStart_suffix behind).trans (parseOpening_suffix opened))
    obtain ⟨last, within, token, _⟩ := parseOpening_last opened
    have level : o.level.name <:+: lineText raw := by
      rw [Level.name_of_parse token]
      exact (StdText.splitOnce_prefix ' ' last).isInfix.trans within.isInfix
    exact ⟨_, o.level, rest, suffix, level, same.symm⟩

theorem lineText_unended (raw : List Char) : (lineText raw).getLast? ≠ some '\r' := by
  intro last
  have some_ : lineText raw ≠ [] := by
    intro empty
    rw [empty] at last
    cases last
  have stops := List.rdropWhile_last_not (fun c => c = '\r' || c = '\n') (stripAnsi raw) some_
  rw [List.getLast?_eq_some_getLast some_] at last
  unfold lineText at last
  rw [Option.some.inj last] at stops
  simp at stops

theorem lineText_plain {raw : List Char} {c : Char} (mem : c ∈ lineText raw) : c ≠ esc := by
  intro escape
  subst escape
  exact Scan.esc_notMem_strip _ _ ((List.rdropWhile_prefix _ _).mem mem)

namespace Saying

/-- A component's tag in its brackets. -/
def bracketed (tag : Option (List Char)) : List Char := tag.elim [] fun tag => '[' :: (tag ++ [']'])

theorem text_component (name : List Char) (tag : Option (List Char)) (message : List Char) :
    (component name tag message).text = name ++ (bracketed tag ++ ':' :: ' ' :: message) := by
  cases tag with
  | none => simp [text, pieces, tagPieces, bracketed]
  | some tag => simp [text, pieces, tagPieces, bracketed]

theorem text_bare (message : List Char) : (bare message).text = message := List.append_nil message

section

variable {tsUs : Int} {level : Level}

theorem unbracket_closed (tag : List Char) : unbracket (tag ++ [']']) = tag := by
  simp [unbracket]

/-- The parser reads a saying back from its own text. -/
theorem parseMessage_text {s : Saying} (wellFormed : s.WellFormed) (tagSpace : ∀ t ∈ s.tag, ' ' ∉ t) :
    parseMessage tsUs level s.text = s.line tsUs level := by
  cases s with
  | component name tag message =>
    obtain ⟨nameSpace, nameBracket, _, _⟩ := wellFormed
    have tagSpace : ' ' ∉ bracketed tag := by
      cases tag with
      | none => exact List.not_mem_nil
      | some tag =>
        have spaceless := tagSpace tag rfl
        simp [bracketed, spaceless]
    have shape : (component name tag message).text =
        (name ++ bracketed tag ++ [':']) ++ ' ' :: message := by
      rw [text_component]
      simp
    have headSpace : ' ' ∉ name ++ bracketed tag ++ [':'] := by
      simp [nameSpace, tagSpace]
    have last : (name ++ bracketed tag ++ [':']).getLast? = some ':' := List.getLast?_concat
    rw [shape, parseMessage, StdText.splitOnce_append headSpace]
    dsimp only
    rw [if_pos last, List.dropLast_concat]
    cases tag with
    | none =>
      rw [bracketed, Option.elim_none, List.append_nil, StdText.splitOnce_absent nameBracket]
      rfl
    | some tag =>
      rw [bracketed, Option.elim_some, StdText.splitOnce_append nameBracket]
      have closed := unbracket_closed tag
      unfold unbracket at closed
      simp only [Option.map_some, closed]
      rfl
  | bare message =>
    obtain ⟨_, _, uncoloned⟩ := wellFormed
    rw [text_bare, parseMessage]
    dsimp only
    rw [if_neg uncoloned]
    rfl

/-- What parses as the saying is its whole text, or all of it but an empty component. -/
theorem text_of_parseMessage {s : Saying} (wellFormed : s.WellFormed) {rest : List Char}
    (suffix : rest <:+ s.text) (parsed : parseMessage tsUs level rest = s.line tsUs level) :
    rest = s.text ∨ s = component [] none rest := by
  cases s with
  | bare message =>
    left
    rw [text_bare] at suffix ⊢
    have same : (parseMessage tsUs level rest).message = message := by rw [parsed, line]
    have longer := (message_suffix tsUs level rest).length_le
    rw [same] at longer
    exact suffix.eq_of_length_le longer
  | component name tag message =>
    obtain ⟨nameSpace, nameBracket, tagBracket, _⟩ := wellFormed
    rw [text_component] at suffix ⊢
    rcases parseMessage_cases tsUs level rest with
      bare | ⟨head, tail, spaceless, shape, whole⟩
    · rw [bare] at parsed
      cases parsed
      exact .inr rfl
    · have fields := whole.symm.trans parsed
      simp only [line, LogLine.mk.injEq, true_and] at fields
      obtain ⟨sameName, sameTag, rfl⟩ := fields
      obtain ⟨front, joined⟩ := suffix
      rcases shape with ⟨rfl, rfl⟩ | rfl
      · -- the colon ends the rest, a space the text
        have lasts := congrArg List.getLast? joined
        simp at lasts
      · left
        have joined : (front ++ head) ++ ':' :: ' ' :: tail =
            (name ++ bracketed tag) ++ ':' :: ' ' :: tail := by simpa using joined
        have heads := List.append_cancel_right joined
        rcases StdText.splitOnce_cases '[' head with ⟨_, split⟩ | ⟨a, b, _, rfl, split⟩
        · rw [split] at sameName sameTag
          subst sameName
          subst sameTag
          rfl
        · rw [split] at sameName sameTag
          subst sameName
          subst sameTag
          have shape : a ++ bracketed (some (unbracket b)) = (a ++ '[' :: unbracket b) ++ [']'] := by
            simp [bracketed]
          have closed := congrArg List.getLast? (heads.trans shape)
          rw [List.getLast?_concat] at closed
          cases b with
          | nil =>
            rw [← List.append_assoc, List.getLast?_concat] at closed
            cases closed
          | cons c b =>
            have behind : front ++ (a ++ '[' :: c :: b) = (front ++ a ++ ['[']) ++ c :: b := by simp
            rw [behind, List.getLast?_append_of_ne_nil _ (List.cons_ne_nil c b)] at closed
            have whole : unbracket (c :: b) ++ [']'] = c :: b := by
              rw [unbracket, if_pos closed]
              exact List.dropLast_append_getLast? ']' closed
            simp [bracketed, whole]

theorem line_tsUs (s : Saying) : (s.line tsUs level).tsUs = tsUs := by
  cases s
  all_goals rfl

/-- What a saying must be like to come out of any line at all. -/
theorem tidy_of_parseLine {s : Saying} {raw : List Char}
    (parsed : parseLine raw = some (s.line tsUs level)) :
    (∀ piece ∈ s.pieces, esc ∉ piece) ∧ s.message.getLast? ≠ some '\r' ∧ ∀ t ∈ s.tag, ' ' ∉ t := by
  obtain ⟨tsUs', level', rest, suffix, -, same⟩ := parseLine_rest parsed
  have texts := parseMessage_texts tsUs' level' rest
  have ends := message_suffix tsUs' level' rest
  rw [← same] at texts ends
  have plain (part : List Char) (within : ∀ c ∈ part, c ∈ rest) : esc ∉ part := fun mem =>
    lineText_plain (suffix.mem (within esc mem)) rfl
  have unreturned (message : List Char) (end_ : message <:+ rest) : message.getLast? ≠ some '\r' := by
    intro returned
    obtain ⟨front, whole⟩ := end_.trans suffix
    apply lineText_unended raw
    rw [← whole, List.getLast?_append, returned, Option.some_or]
  cases s with
  | component name tag message =>
    refine ⟨?_, unreturned message ends, fun t some_ => (texts.2 t some_).2⟩
    have ownName : esc ∉ name := plain name texts.1
    have ownMessage : esc ∉ message := plain message fun c mem => ends.mem mem
    have fixed : esc ≠ '[' ∧ esc ≠ ']' ∧ esc ≠ ':' ∧ esc ≠ ' ' := by decide
    cases tag with
    | none => simp [pieces, tagPieces, ownName, ownMessage, fixed]
    | some tag =>
      have ownTag : esc ∉ tag := plain tag (texts.2 tag rfl).1
      simp [pieces, tagPieces, ownName, ownMessage, ownTag, fixed]
  | bare message =>
    refine ⟨?_, unreturned message ends, fun t some_ => by cases some_⟩
    have ownMessage : esc ∉ message := plain message fun c mem => ends.mem mem
    simp [pieces, ownMessage]

end

end Saying

namespace Entry

section

variable (colours : Nat → List Colour)

theorem openingPieces_plain (e : Entry) : ∀ piece ∈ e.openingPieces, esc ∉ piece := by
  have digit : esc.isDigit = false := by decide
  have offset := e.offset.notMem_text digit (by decide) (by decide)
  have date := notMem_dateText digit (by decide) e.date.year.toNat e.date.month e.date.day
  have time := e.time.notMem_text digit (by decide)
  have level : esc ∉ e.level.name := by
    cases e.level
    all_goals decide
  have space : esc ∉ [' '] := by decide
  simp [openingPieces, offset, date, time, level, space]

/-- What is left of a connection field: its closing bracket too, unless an escape sequence is still
unfinished where it stands. -/
def connectionShown (c : Connection) : List Char :=
  '[' :: (Scan.text.strip (connectionText colours c) ++
    if Scan.text.after (connectionText colours c) = .params then [' '] else [']', ' '])

theorem strip_bracket (scan : Scan) (rest : List Char) :
    scan.strip (']' :: rest) =
      (if scan = .params then [] else [']']) ++ Scan.text.strip rest := by
  cases scan
  all_goals rfl

theorem connection_shape (c : Connection) :
    paint colours 8 [['['], c.id, [' '], c.duration, [']'], [' ']] =
      colourRun (colours 8) ++ '[' :: (connectionText colours c ++
        ']' :: (colourRun (colours 13) ++ [' '])) := by
  simp [paint, connectionText]

theorem strip_connection (c : Connection) :
    Scan.text.strip (paint colours 8 [['['], c.id, [' '], c.duration, [']'], [' ']]) =
      connectionShown colours c := by
  have bracket (rest : List Char) : Scan.text.strip ('[' :: rest) = '[' :: Scan.text.strip rest := rfl
  have space : Scan.text.strip (colourRun (colours 13) ++ [' ']) = [' '] := by
    rw [Scan.strip_append, strip_colourRun, after_colourRun]
    rfl
  rw [connection_shape, Scan.strip_append, strip_colourRun, after_colourRun, List.nil_append, bracket,
    Scan.strip_append, strip_bracket, space, connectionShown]
  split
  · rfl
  · rfl

theorem after_connection (c : Connection) :
    Scan.text.after (paint colours 8 [['['], c.id, [' '], c.duration, [']'], [' ']]) = .text := by
  have bracket (scan : Scan) (rest : List Char) :
      scan.after (']' :: rest) = Scan.text.after rest := by
    cases scan
    all_goals rfl
  have opened (rest : List Char) : Scan.text.after ('[' :: rest) = Scan.text.after rest := rfl
  rw [connection_shape, Scan.after_append, after_colourRun, opened, Scan.after_append, bracket,
    Scan.after_append, after_colourRun]
  rfl

def shown (e : Entry) : List Char := e.connection.elim [] (connectionShown colours)

theorem strip_render {e : Entry} (plain : ∀ piece ∈ e.saying.pieces, esc ∉ piece) :
    stripAnsi (e.render colours) = e.openingPieces.flatten ++ (e.shown colours ++ e.saying.text) := by
  have opening := e.openingPieces_plain
  have eight : 0 + e.openingPieces.length = 8 := rfl
  have connection : Scan.text.strip (paint colours 8 e.connectionPieces) = e.shown colours ∧
      Scan.text.after (paint colours 8 e.connectionPieces) = .text := by
    unfold connectionPieces shown
    cases e.connection with
    | none => exact ⟨rfl, rfl⟩
    | some c => exact ⟨strip_connection colours c, after_connection colours c⟩
  unfold stripAnsi render
  dsimp only
  rw [paint_append, paint_append, eight, List.append_assoc, List.append_assoc, Scan.strip_append,
    strip_paint colours 0 opening, after_paint colours 0 opening, Scan.strip_append, connection.1,
    connection.2, Scan.strip_append, strip_paint colours _ plain, after_paint colours _ plain,
    strip_colourRun, List.append_nil]
  rfl

/-- A space stands in front of every saying. -/
theorem shown_ends (e : Entry) :
    ∃ front, e.openingPieces.flatten ++ e.shown colours = front ++ [' '] := by
  cases some_ : e.connection with
  | none =>
    refine ⟨[e.offset.text, [' '], dateText e.date.year.toNat e.date.month e.date.day, [' '],
      e.time.text, [' '], e.level.name].flatten, ?_⟩
    simp only [shown, some_, openingPieces, Option.elim_none, List.flatten_cons, List.flatten_nil,
      List.append_assoc, List.append_nil]
  | some c =>
    have last : ∃ front, connectionShown colours c = front ++ [' '] := by
      unfold connectionShown
      split
      · exact ⟨'[' :: Scan.text.strip (connectionText colours c), rfl⟩
      · exact ⟨'[' :: (Scan.text.strip (connectionText colours c) ++ [']']), by simp⟩
    obtain ⟨front, ends⟩ := last
    refine ⟨e.openingPieces.flatten ++ front, ?_⟩
    rw [shown, some_, Option.elim_some, ends, List.append_assoc]

/-- The end that a line's text loses is not in a saying that keeps its own. -/
theorem lineText_render {e : Entry} (plain : ∀ piece ∈ e.saying.pieces, esc ∉ piece)
    (unreturned : e.saying.message.getLast? ≠ some '\r') :
    lineText (e.render colours) = e.openingPieces.flatten ++ (e.shown colours ++ e.saying.text) := by
  obtain ⟨front, shape⟩ : ∃ front, e.openingPieces.flatten ++ (e.shown colours ++ e.saying.text) =
      front ++ ' ' :: e.saying.message := by
    obtain ⟨front, ends⟩ := e.shown_ends colours
    cases e.saying with
    | component name tag message =>
      refine ⟨front ++ ' ' :: (name ++ Saying.bracketed tag ++ [':']), ?_⟩
      rw [Saying.text_component, ← List.append_assoc, ends, Saying.message]
      simp
    | bare message =>
      refine ⟨front, ?_⟩
      rw [Saying.text_bare, ← List.append_assoc, ends, Saying.message]
      simp
  have singleLine : '\n' ∉ e.saying.message := by
    have wellFormed := e.wellFormed
    cases same : e.saying with
    | component name tag message =>
      rw [same] at wellFormed
      exact wellFormed.2.2.2
    | bare message =>
      rw [same] at wellFormed
      exact wellFormed.1
  rw [lineText, strip_render colours plain, shape, List.rdropWhile_eq_self_iff]
  intro some_ ends
  have last := List.getLast?_eq_some_getLast some_
  rw [List.getLast?_append_of_ne_nil _ (List.cons_ne_nil _ _), List.getLast?_cons] at last
  cases empty : e.saying.message.getLast? with
  | none =>
    rw [empty] at last
    simp [← Option.some.inj last] at ends
  | some c =>
    rw [empty, Option.getD_some] at last
    rw [← Option.some.inj last] at ends
    simp only [Bool.or_eq_true, decide_eq_true_eq] at ends
    rcases ends with rfl | rfl
    · exact unreturned empty
    · exact singleLine (List.mem_of_getLast? empty)

theorem FitsI64_year {e : Entry} (fits : FitsI64 e.instantUs) : e.date.year ≤ i64Max := by
  have months := e.date.months
  have days := e.date.days
  have time := e.time.within
  have offset := e.offset.within
  unfold FitsI64 instantUs Date.number dayNumber Offset.secs i64Min i64Max at fits
  unfold i64Max
  dsimp only at fits
  split at fits
  · split at fits
    · omega
    · omega
  · split at fits
    · omega
    · omega

theorem opening_instantUs (e : Entry) : e.opening.instantUs Date.number = e.instantUs := by
  unfold Opening.instantUs instantUs
  rw [CivilDay.counted_eq dayNumber_epoch Date.number_next]
  rfl

theorem opening_tsUs {e : Entry} (fits : FitsI64 e.instantUs) :
    (e.opening.tsUs fun x => (pure (wrapI64 x) : Id Int)).run = e.instantUs := by
  have parsed := parseOpening_offset (e.parseOpening_pieces (FitsI64_year fits) [])
  rw [← opening_instantUs] at fits ⊢
  exact Agree.tsUs e.opening _
    ((Opening.tsUs_checked dayNumber_epoch Date.number_next parsed).mpr ⟨fits, rfl⟩)

theorem parseLine_render {e : Entry} (fits : FitsI64 e.instantUs)
    (plain : ∀ piece ∈ e.saying.pieces, esc ∉ piece)
    (unreturned : e.saying.message.getLast? ≠ some '\r') :
    parseLine (e.render colours) =
      (skipConnection (StdText.trimStart (e.shown colours ++ e.saying.text))).map
        (parseMessage e.instantUs e.level) := by
  rw [parseLine, parseLineWith, lineText_render colours plain unreturned,
    e.parseOpening_pieces (FitsI64_year fits)]
  have counted := opening_tsUs fits
  simp only [Id.run, bind, pure] at counted ⊢
  rw [counted]
  rfl

theorem bracket_notMem_strip (c : Connection) :
    ']' ∉ Scan.text.strip (connectionText colours c) := by
  intro mem
  have there := (Scan.strip_sublist _ _).mem mem
  unfold connectionText at there
  rcases List.mem_append.mp there with field | colour
  · refine bracket_notMem_paint colours 9 (fun piece among => ?_) field
    simp only [List.mem_cons, List.not_mem_nil, or_false] at among
    rcases among with rfl | rfl | rfl
    · exact c.within.1
    · decide
    · exact c.within.2
  · exact bracket_notMem_colourRun _ colour

/-- Behind a connection field whose bracket is seen, the saying is reached. -/
theorem skipConnection_closed {c : Connection} (text : List Char)
    (closed : Scan.text.after (connectionText colours c) ≠ .params) :
    skipConnection (StdText.trimStart (connectionShown colours c ++ text)) =
      some (StdText.trimStart text) := by
  have shape : connectionShown colours c ++ text =
      '[' :: (Scan.text.strip (connectionText colours c) ++ ']' :: ' ' :: text) := by
    simp [connectionShown, closed]
  have front : StdText.trimStart (connectionShown colours c ++ text) =
      connectionShown colours c ++ text :=
    trimStart_eq_self fun c first => by
      rw [shape] at first
      cases first
      decide
  rw [front, shape, skipConnection, StdText.splitOnce_append (bracket_notMem_strip colours c)]
  rfl

/-- A bracket swallowed by an escape sequence is looked for in the saying. -/
theorem skipConnection_open {c : Connection} {text rest : List Char}
    (open_ : Scan.text.after (connectionText colours c) = .params)
    (skipped : skipConnection (StdText.trimStart (connectionShown colours c ++ text)) = some rest) :
    ∃ before behind, text = before ++ ']' :: behind ∧ rest <:+ behind := by
  have shape : connectionShown colours c ++ text =
      '[' :: (Scan.text.strip (connectionText colours c) ++ [' '] ++ text) := by
    simp [connectionShown, open_]
  have front : StdText.trimStart (connectionShown colours c ++ text) =
      connectionShown colours c ++ text :=
    trimStart_eq_self fun c first => by
      rw [shape] at first
      cases first
      decide
  have absent : ']' ∉ Scan.text.strip (connectionText colours c) ++ [' '] := by
    simp [bracket_notMem_strip]
  rw [front, shape] at skipped
  obtain ⟨inner, split, rfl⟩ := Option.map_eq_some_iff.mp skipped
  rcases StdText.splitOnce_cases ']'
    (Scan.text.strip (connectionText colours c) ++ [' '] ++ text) with ⟨_, none_⟩ | ⟨a, b, _, joined, some_⟩
  · rw [none_] at split
    cases split
  · rw [some_] at split
    cases split
    rcases List.append_eq_append_iff.mp joined with ⟨u, rfl, same⟩ | ⟨u, same, behind⟩
    · exact ⟨u, inner, same, trimStart_suffix inner⟩
    · cases u with
      | nil => exact ⟨[], inner, behind.symm, trimStart_suffix inner⟩
      | cons d u =>
        cases (List.cons.inj behind).1
        rw [same] at absent
        exact absurd (List.mem_append_right a List.mem_cons_self) absent

/-- Then the saying does not come out. -/
theorem open_lost {c : Connection} {s : Saying} {rest : List Char} {tsUs : Int} {level : Level}
    (open_ : Scan.text.after (connectionText colours c) = .params) (wellFormed : s.WellFormed)
    (parsed : parseMessage tsUs level rest = s.line tsUs level) :
    skipConnection (StdText.trimStart (connectionShown colours c ++ s.text)) ≠ some rest := by
  intro skipped
  obtain ⟨before, behind, split, suffix⟩ := skipConnection_open colours open_ skipped
  have shorter := suffix.length_le
  have within : rest <:+ s.text := by
    rw [split]
    exact suffix.trans ⟨before ++ [']'], by simp⟩
  rcases Saying.text_of_parseMessage wellFormed within parsed with whole | nameless
  · have lengths := congrArg List.length split
    rw [← whole, List.length_append, List.length_cons] at lengths
    omega
  · have shape : s.text = ':' :: ' ' :: rest := by
      rw [nameless, Saying.text_component]
      rfl
    rw [shape] at split
    have lengths := congrArg List.length split
    simp only [List.length_cons, List.length_append] at lengths
    -- the bracket would have to be the colon or the space
    cases before with
    | nil => cases split
    | cons d before =>
      cases before with
      | nil => cases split
      | cons f before =>
        rw [List.length_cons, List.length_cons] at lengths
        omega

/-- A kept line is parsed back to exactly what it was written from, whatever its colours. -/
theorem parseLine_kept {e : Entry} (kept : e.Kept colours) :
    parseLine (e.render colours) = some e.line := by
  obtain ⟨fits, closed, kept⟩ := kept
  have trimmed : StdText.trimStart e.saying.text = e.saying.text := trimStart_eq_self kept.shown
  have reached : skipConnection (StdText.trimStart (e.shown colours ++ e.saying.text)) =
      some e.saying.text := by
    cases some_ : e.connection with
    | none =>
      have unopened : e.saying.text.head? ≠ some '[' := by
        intro opened
        have connected := kept.unopened opened
        rw [some_] at connected
        cases connected
      rw [shown, some_, Option.elim_none, List.nil_append, trimmed, skipConnection_unopened unopened]
    | some c =>
      rw [shown, some_, Option.elim_some, skipConnection_closed colours _ (closed c some_), trimmed]
  rw [parseLine_render colours fits kept.plain kept.unreturned, reached, Option.map_some,
    Saying.parseMessage_text e.wellFormed kept.spaceless, line]

/-- No other line is. -/
theorem kept_of_parseLine {e : Entry} (parsed : parseLine (e.render colours) = some e.line) :
    e.Kept colours := by
  have fits : FitsI64 e.instantUs := by
    have whole := parseLine_fits parsed
    rw [line, Saying.line_tsUs] at whole
    exact whole
  obtain ⟨plain, unreturned, spaceless⟩ := Saying.tidy_of_parseLine parsed
  rw [parseLine_render colours fits plain unreturned] at parsed
  obtain ⟨rest, skipped, same⟩ := Option.map_eq_some_iff.mp parsed
  have front := skipConnection_head skipped
  have visible (suffix : rest <:+ e.saying.text) :
      ∀ c ∈ e.saying.text.head?, Dhcp.isWhitespace c = false := by
    rcases Saying.text_of_parseMessage e.wellFormed suffix same with whole | nameless
    · rw [← whole]
      exact front
    · rw [nameless, Saying.text_component]
      intro c first
      cases first
      decide
  cases some_ : e.connection with
  | none =>
    rw [shown, some_, Option.elim_none, List.nil_append] at skipped
    have suffix := (skipConnection_suffix skipped).trans (trimStart_suffix e.saying.text)
    refine ⟨fits, fun c here => ?_, ⟨plain, unreturned, spaceless, visible suffix, fun opened => ?_⟩⟩
    · rw [some_] at here
      cases here
    · rw [trimStart_eq_self (visible suffix)] at skipped
      rcases Saying.text_of_parseMessage e.wellFormed suffix same with whole | nameless
      · rw [← whole] at opened skipped
        cases rest with
        | nil => cases opened
        | cons c behind =>
          cases opened
          have shorter := skipConnection_shorter skipped
          rw [List.length_cons] at shorter
          omega
      · rw [nameless, Saying.text_component] at opened
        cases opened
  | some c =>
    rw [shown, some_, Option.elim_some] at skipped
    by_cases open_ : Scan.text.after (connectionText colours c) = .params
    · exact absurd skipped (open_lost colours open_ e.wellFormed same)
    · rw [skipConnection_closed colours _ open_] at skipped
      have suffix : rest <:+ e.saying.text := by
        cases skipped
        exact trimStart_suffix e.saying.text
      refine ⟨fits, fun d here => ?_, ⟨plain, unreturned, spaceless, visible suffix, fun _ => ?_⟩⟩
      · rw [some_] at here
        cases here
        exact open_
      · rw [some_]
        rfl

end

/-- A failed reply, as the proxy logs it. -/
def failedReply (message : List Char) (single : '\n' ∉ message) : Entry where
  offset := ⟨false, 3, 0, by decide⟩
  date := ⟨2026, 9, 17, by decide, by decide, by decide, by decide⟩
  year := by decide
  time := ⟨20, 56, 25, by decide⟩
  level := .error
  connection := some ⟨"179023894".toList, "15.22s".toList, by decide⟩
  saying := .component "outbound/direct".toList (some "direct-out".toList) message
  wellFormed := ⟨by decide, by decide, by simp, single⟩

/-- Its colours: around the level, and around the connection's id. -/
def replyColours (gap : Nat) : List Colour :=
  if gap = 6 then [⟨"31".toList, by decide⟩]
  else if gap = 9 then [⟨"38;5;38".toList, by decide⟩]
  else if gap = 7 ∨ gap = 10 then [⟨"0".toList, by decide⟩]
  else []

theorem parseLine_kept_failedReply :
    parseLine ((failedReply "EOF".toList (by decide)).render replyColours) =
      some (failedReply "EOF".toList (by decide)).line :=
  parseLine_kept replyColours ⟨⟨by decide, by decide⟩,
    fun c here => by
      cases here
      decide,
    { plain := fun piece among => by
        simp only [failedReply, Saying.pieces, Saying.tagPieces, List.cons_append, List.nil_append,
          List.mem_cons, List.not_mem_nil, or_false] at among
        rcases among with rfl | rfl | rfl | rfl | rfl | rfl | rfl
        all_goals decide
      unreturned := by decide
      spaceless := fun t some_ => by
        cases some_
        decide
      shown := fun c first => by
        cases first
        decide
      unopened := fun _ => rfl }⟩

/-- An escape sequence of the message's own is stripped with the colours. -/
theorem failedReply_coloured :
    parseLine ((failedReply "\x1b[31mEOF".toList (by decide)).render fun _ => []) ≠
      some (failedReply "\x1b[31mEOF".toList (by decide)).line := by
  intro parsed
  have plain := (kept_of_parseLine _ parsed).2.2.plain
  exact plain "\x1b[31mEOF".toList (by decide) (by decide)

end Entry

end SingboxLog
end NetObserver
