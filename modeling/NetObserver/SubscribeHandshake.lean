import NetObserver.EventStream
import NetObserver.QueryMessages

/-! A subscription's first line, from a daemon of any build, and the air window's way around a
daemon that cannot read its filter. -/

namespace NetObserver

def EventKind.asStr : EventKind → String
  | .link => "link"
  | .proxy => "proxy"
  | .dns => "dns"
  | .route => "route"
  | .host => "host"
  | .wifi => "wifi"
  | .neighbors => "neighbors"
  | .air => "air"
  | .connections => "connections"
  | .singboxLog => "singbox-log"
  | .portal => "portal"
  | .incident => "incident"
  | .incidentClosed => "incident-closed"

def StreamErrorCode.asStr : StreamErrorCode → String
  | .tooManySubscribers => "too-many-subscribers"

def StreamFrame.label : StreamFrame → String
  | .ready _ => "subscribed"
  | .event e => e.kind.asStr
  | .gap _ => "gap"
  | .observing _ => "observing"
  | .probing _ => "probing"
  | .error _ => "error"

/-- The client's decoders, and what they make of the lines a daemon of its frames writes. The answer
to a request it could not read carries a text, which is no frame. -/
structure HandshakeJson (Line : Type) where
  frame : Line → Except String StreamFrame
  response : Line → Except String Response
  shown : Response → String
  ofFrame : StreamFrame → Line
  ofError : String → Line
  frame_ofFrame : ∀ f, frame (ofFrame f) = .ok f
  frame_ofError : ∀ m, ∃ e, frame (ofError m) = .error e
  response_ofError : ∀ m, response (ofError m) = .ok (.error m)

inductive Handshake where
  | ready (r : Ready)
  | refused (e : StreamError)
  | badRequest (message : String)
  | unexpected (what : String)

def decodeHandshake {Line : Type} (json : HandshakeJson Line) (line : Line) : Handshake :=
  match json.frame line with
  | .ok (.ready r) => .ready r
  | .ok (.error e) => .refused e
  | .ok other => .unexpected ("a " ++ other.label ++ " frame")
  | .error _ =>
    match json.response line with
    | .ok (.error message) => .badRequest message
    | .ok other => .unexpected ("a one-shot " ++ json.shown other ++ " response")
    | .error e => .unexpected ("an undecodable frame: " ++ e)

def badRequestPrefix : String := "net-observerd rejected the subscription: "

def refusedText (e : StreamError) : String :=
  "net-observerd refused the subscription (" ++ e.code.asStr ++ "): " ++ e.message

/-- `subscribe`, its failure by its text: the socket fails, or answers a line. -/
def subscribe {Line : Type} (json : HandshakeJson Line) (answer : Except String Line) :
    Except String Ready :=
  match answer with
  | .error e => .error e
  | .ok line =>
    match decodeHandshake json line with
    | .ready r => .ok r
    | .refused e => .error (refusedText e)
    | .badRequest message => .error (badRequestPrefix ++ message)
    | .unexpected what => .error ("expected a Ready ack as the first frame, got " ++ what)

def isBadRequest (e : String) : Bool := startsWith e badRequestPrefix

section

variable {Line : Type} {json : HandshakeJson Line}

theorem subscribe_ready (r : Ready) : subscribe json (.ok (json.ofFrame (.ready r))) = .ok r := by
  simp only [subscribe, decodeHandshake, json.frame_ofFrame]

theorem subscribe_refused (e : StreamError) :
    subscribe json (.ok (json.ofFrame (.error e))) = .error (refusedText e) := by
  simp only [subscribe, decodeHandshake, json.frame_ofFrame]

theorem subscribe_unread (m : String) :
    subscribe json (.ok (json.ofError m)) = .error (badRequestPrefix ++ m) := by
  obtain ⟨e, undecoded⟩ := json.frame_ofError m
  simp only [subscribe, decodeHandshake, undecoded, json.response_ofError]

/-- What two texts begin with alike settles nothing. -/
theorem startsWith_common (common s front : String) :
    startsWith (common ++ s) (common ++ front) = startsWith s front := by
  have pieces : (common ++ front).toList <+: (common ++ s).toList ↔ front.toList <+: s.toList := by
    rw [String.toList_append, String.toList_append]
    exact List.prefix_append_right_inj _
  unfold startsWith
  rw [Bool.eq_iff_iff, List.isPrefixOf_iff_prefix, List.isPrefixOf_iff_prefix]
  exact pieces

theorem isBadRequest_unread (m : String) : isBadRequest (badRequestPrefix ++ m) = true :=
  startsWith_append badRequestPrefix m

/-- A refusal parts from the marker in its verb. -/
theorem isBadRequest_refused (e : StreamError) : isBadRequest (refusedText e) = false := by
  have marker : badRequestPrefix = "net-observerd re" ++ "jected the subscription: " := rfl
  have words : "net-observerd refused the subscription (" =
      "net-observerd re" ++ "fused the subscription (" := rfl
  have word : "fused the subscription (".toList.head? = some 'f' := rfl
  unfold isBadRequest refusedText
  generalize e.code.asStr = code
  generalize e.message = message
  rw [words, marker, String.append_assoc, String.append_assoc, String.append_assoc,
    startsWith_common]
  have verb : ("fused the subscription (" ++ (code ++ ("): " ++ message))).toList.head? =
      some 'f' := by
    rw [String.toList_append, List.head?_append, word]
    rfl
  exact startsWith_of_head verb rfl (by decide)

end

/-! The subscription as a daemon of any build serves it -/

/-- What a client's connection comes to: the socket fails, the daemon cannot read the filter, or
it takes up a subscription, here as it stands at any moment from its first frame on. -/
inductive DaemonAnswer where
  | down (text : String)
  | unread (complaint : String)
  | opened (s : Subscription) (first : StreamFrame)

def DaemonAnswer.line {Line : Type} (json : HandshakeJson Line) : DaemonAnswer → Except String Line
  | .down text => .error text
  | .unread complaint => .ok (json.ofError (undecodableRequest ++ complaint))
  | .opened _ first => .ok (json.ofFrame first)

/-- A daemon reads a filter whose every kind its build knows, and no filter at all. -/
def reads (knows : EventKind → Bool) : Option (List EventKind) → Bool
  | none => true
  | some kinds => kinds.all knows

/-- A subscription of these kinds somewhere in a run of the daemon it is on. -/
def ServedTo (kinds : Option (List EventKind)) (d : ControlPlane) (s : Subscription) : Prop :=
  ∃ localInstant tier bootedUs labels w,
    Runs.runSteps (StreamWorld.step localInstant) (.start tier bootedUs) labels = some w ∧
      w.plane = d ∧ w.subscription = some s ∧ s.kinds = kinds

/-- What a daemon of this build answers to a filter. -/
def DaemonAnswer.From (knows : EventKind → Bool) (kinds : Option (List EventKind)) :
    DaemonAnswer → Prop
  | .down text => isBadRequest text = false
  | .unread _ => reads knows kinds = false
  | .opened s first => reads knows kinds = true ∧ s.written.head? = some first ∧
      ∃ d, ServedTo kinds d s

/-- A subscription's first frame is its ack or its refusal. -/
theorem ServedTo.first {kinds : Option (List EventKind)} {d : ControlPlane} {s : Subscription}
    {f : StreamFrame} (served : ServedTo kinds d s) (first : s.written.head? = some f) :
    (∃ r, f = .ready r) ∨ ∃ e, f = .error e := by
  obtain ⟨localInstant, tier, bootedUs, labels, w, ran, rfl, held, rfl⟩ := served
  have keeps := (streamKept_run ran).keeps s held
  unfold Keeps at keeps
  split at keeps
  next =>
    obtain ⟨e, only⟩ := keeps
    rw [only] at first
    cases first
    exact .inr ⟨e, rfl⟩
  next =>
    rw [keeps.1] at first
    cases first
  next =>
    rw [keeps.1] at first
    cases first
  next =>
    obtain ⟨ready, segments, follows⟩ := keeps
    rw [follows.written] at first
    cases first
    exact .inl ⟨ready, rfl⟩

/-- What a failed ask says: the socket's own text, the daemon's complaint or its refusal. -/
def DaemonAnswer.failure : DaemonAnswer → String
  | .down text => text
  | .unread complaint => badRequestPrefix ++ (undecodableRequest ++ complaint)
  | .opened _ (.error e) => refusedText e
  | .opened .. => ""

theorem DaemonAnswer.From.subscribe {Line : Type} (json : HandshakeJson Line)
    {knows : EventKind → Bool} {kinds : Option (List EventKind)} {a : DaemonAnswer}
    (answered : a.From knows kinds) :
    (∃ s r, a = .opened s (.ready r) ∧ NetObserver.subscribe json (a.line json) = .ok r) ∨
      (∀ s r, a ≠ .opened s (.ready r)) ∧
        NetObserver.subscribe json (a.line json) = .error a.failure := by
  cases a with
  | down text => exact .inr ⟨fun s r same => (by cases same), rfl⟩
  | unread complaint => exact .inr ⟨fun s r same => (by cases same), subscribe_unread _⟩
  | opened s f =>
    obtain ⟨_, first, d, served⟩ := answered
    rcases served.first first with ⟨r, rfl⟩ | ⟨e, rfl⟩
    · exact .inl ⟨s, r, rfl, subscribe_ready r⟩
    · exact .inr ⟨fun s r same => (by cases same), subscribe_refused e⟩

/-- The client asks again exactly where the daemon could not read its filter. -/
theorem DaemonAnswer.From.isBadRequest {knows : EventKind → Bool}
    {kinds : Option (List EventKind)} {a : DaemonAnswer} (answered : a.From knows kinds)
    (failed : ∀ s r, a ≠ .opened s (.ready r)) :
    NetObserver.isBadRequest a.failure = true ↔ ∃ complaint, a = .unread complaint := by
  cases a with
  | down text =>
    have plain : NetObserver.isBadRequest text = false := answered
    simp [failure, plain]
  | unread complaint => simp [failure, isBadRequest_unread]
  | opened s f =>
    obtain ⟨_, first, d, served⟩ := answered
    rcases served.first first with ⟨r, rfl⟩ | ⟨e, rfl⟩
    · exact absurd rfl (failed s r)
    · simp [failure, isBadRequest_refused]

end NetObserver
