import NetObserver.DiagnosticQueries
import NetObserver.ExperimentWindow
import NetObserver.Infixes

/-! The texts a query fails with, and how a client tells them apart. -/

namespace NetObserver

open StdText Infixes

/-- The answers to any other request are kept by their debug text alone. -/
inductive Response where
  | table (t : QueryTable)
  | error (message : String)
  | other (shown : String)

inductive QueryOutcome where
  | table (t : QueryTable)
  | failed (message : String)
  | unsupported (message : String)

def undecodableRequest : String := "bad request: "

def startsWith (s front : String) : Bool := front.toList.isPrefixOf s.toList

def classifyQuery : Response → Except String QueryOutcome
  | .table t => .ok (.table t)
  | .error message =>
    if startsWith message undecodableRequest then .ok (.unsupported message)
    else .ok (.failed message)
  | .other shown => .error ("expected a Table response, got " ++ shown)

def stillRunning : List Char := " still running (ends at ".toList

def isExperimentRunning (message : String) : Bool :=
  startsWith message "experiment " && contains stillRunning message.toList

theorem startsWith_append (front s : String) : startsWith (front ++ s) front = true := by
  rw [startsWith, String.toList_append, List.isPrefixOf_iff_prefix]
  exact List.prefix_append _ _

/-- A text does not begin with another if the two differ in their first characters. -/
theorem startsWith_of_head {s front : String} {c d : Char} (ofText : s.toList.head? = some c)
    (ofFront : front.toList.head? = some d) (differ : c ≠ d) : startsWith s front = false := by
  cases hs : s.toList with
  | nil =>
    rw [hs] at ofText
    cases ofText
  | cons a as =>
    cases hf : front.toList with
    | nil =>
      rw [hf] at ofFront
      cases ofFront
    | cons b bs =>
      rw [hs] at ofText
      rw [hf] at ofFront
      cases ofText
      cases ofFront
      rw [startsWith, hs, hf, List.isPrefixOf, beq_false_of_ne (Ne.symm differ), Bool.false_and]

/-- A failure that is no word about an experiment, nor about a request that cannot be read. -/
def PlainFailure (message : String) : Prop :=
  startsWith message undecodableRequest = false ∧ startsWith message "experiment " = false

theorem plain_of_head {front : String} {c : Char} (head : front.toList.head? = some c)
    (notB : c ≠ 'b') (notE : c ≠ 'e') (rest : String) : PlainFailure (front ++ rest) := by
  have whole : (front ++ rest).toList.head? = some c := by
    rw [String.toList_append, List.head?_append, head]
    rfl
  exact ⟨startsWith_of_head whole rfl notB, startsWith_of_head whole rfl notE⟩

theorem describe_plain (e : ReadError) : PlainFailure (describe e) := by
  cases e with
  | interrupted budgetNs =>
    have head : "diagnosis exceeded ".toList.head? = some 'd' := rfl
    have whole := plain_of_head head (by decide) (by decide)
      ((budgetNs / 1000000000).repr ++ " s and was interrupted")
    rw [← String.append_assoc] at whole
    exact whole
  | other text =>
    have head : "diagnosis failed: ".toList.head? = some 'd' := rfl
    unfold describe
    exact plain_of_head head (by decide) (by decide) _

theorem networkKey_plain {key message : String} (bad : validateNetworkKey key = .error message) :
    PlainFailure message := by
  have head : "not a segment key: ".toList.head? = some 'n' := rfl
  unfold validateNetworkKey at bad
  split at bad
  · cases bad
  · cases bad
    unfold badNetworkKey
    rw [String.append_assoc]
    exact plain_of_head head (by decide) (by decide) _

theorem iface_plain {iface message : String} (bad : validateIface iface = .error message) :
    PlainFailure message := by
  have head : "not an interface name: ".toList.head? = some 'n' := rfl
  unfold validateIface at bad
  split at bad
  · cases bad
  · cases bad
    unfold badIface
    rw [String.append_assoc]
    exact plain_of_head head (by decide) (by decide) _

/-- A statement is refused with the words of its own check. -/
theorem statement_refused {q : DiagnosticQuery} {loadThreshold : Machine.F64} {message : String}
    (refused : q.statement loadThreshold = some (.error message)) : PlainFailure message := by
  have mapped {f : Unit → PreparedSql} {x : Except String Unit}
      (bad : x.map f = .error message) : x = .error message := by
    cases x with
    | error e =>
      cases bad
      rfl
    | ok u => cases bad
  have any {validate : String → Except String Unit} {text : Option String}
      (plain : ∀ {k : String}, validate k = .error message → PlainFailure message)
      (bad : validateAny validate text = .error message) : PlainFailure message := by
    cases text with
    | none => cases bad
    | some k => exact plain bad
  cases q with
  | neighbors network => exact any networkKey_plain (mapped (Option.some.inj refused))
  | vulns network => exact any networkKey_plain (mapped (Option.some.inj refused))
  | history network window => exact networkKey_plain (mapped (Option.some.inj refused))
  | topology iface => exact any iface_plain (mapped (Option.some.inj refused))
  | experiment id => cases refused
  | cveLookup product version => cases refused
  | _ => cases Option.some.inj refused

/-- A window that runs is told to run. -/
theorem running_message (localInstant : Int → String) (id : String) (endsAtUs : Int) :
    isExperimentRunning (experimentRunningMessage localInstant id endsAtUs) = true := by
  have front : startsWith (experimentRunningMessage localInstant id endsAtUs) "experiment " =
      true := by
    simp only [experimentRunningMessage, String.append_assoc]
    exact startsWith_append _ _
  have inside : stillRunning <:+: (experimentRunningMessage localInstant id endsAtUs).toList := by
    simp only [experimentRunningMessage, String.toList_append]
    rw [List.append_assoc _ (localInstant endsAtUs).toList]
    exact List.infix_append _ _ _
  rw [isExperimentRunning, front, contains_iff.mpr inside]
  rfl

theorem not_running_of_plain {message : String} (plain : PlainFailure message) :
    isExperimentRunning message = false := by
  rw [isExperimentRunning, plain.2, Bool.false_and]

/-- Behind its first word the running words are looked for from the blank before the id on. -/
theorem running_iff_behind (id rest : String) :
    isExperimentRunning ("experiment " ++ id ++ rest) = true ↔
      stillRunning <:+: (' ' :: id.toList) ++ rest.toList := by
  have front : startsWith ("experiment " ++ id ++ rest) "experiment " = true := by
    rw [String.append_assoc]
    exact startsWith_append _ _
  have first : "experiment ".toList = "experiment".toList ++ [' '] := rfl
  have text : ("experiment " ++ id ++ rest).toList =
      "experiment".toList ++ ((' ' :: id.toList) ++ rest.toList) := by
    simp only [String.toList_append, first, List.append_assoc, List.cons_append, List.nil_append]
  have blank : ' ' ∉ "experiment".toList := by decide
  rw [isExperimentRunning, front, Bool.true_and, contains_iff, text]
  exact infix_append_right_iff blank

theorem colon_free : ':' ∉ stillRunning := by decide

theorem not_found_running_iff (id : String) :
    isExperimentRunning (experimentNotFound id) = true ↔
      stillRunning <:+: ' ' :: id.toList ++ [' '] := by
  have tail : " not found: this daemon did not run it and the record holds no such window".toList =
      [' '] ++ ("not found".toList ++
        ':' :: " this daemon did not run it and the record holds no such window".toList) := rfl
  have behind : ¬ stillRunning <:+:
      " this daemon did not run it and the record holds no such window".toList := by
    have absent : contains stillRunning
      " this daemon did not run it and the record holds no such window".toList = false := rfl
    intro held
    rw [contains_iff.mpr held] at absent
    cases absent
  have apart : ∀ back ∈ stillRunning.tails, back ≠ [] → ¬ back <+: "not found".toList := by
    have all : (stillRunning.tails.all fun back =>
      back.isEmpty || !back.isPrefixOf "not found".toList) = true := rfl
    intro back mem some_ initial
    have one := List.all_eq_true.mp all back mem
    rw [List.isPrefixOf_iff_prefix.mpr initial, List.isEmpty_eq_false_iff.mpr some_] at one
    cases one
  have inner : ¬ stillRunning <:+: "not found".toList := by
    intro held
    exact absurd held.length_le (by decide)
  rw [experimentNotFound, running_iff_behind, tail, ← List.append_assoc, ← List.append_assoc,
    infix_append_cons_iff colon_free, infix_append_left_iff apart inner]
  exact or_iff_left behind

theorem unreadable_running_iff (id e : String) :
    isExperimentRunning
        (experimentUnreadable id ("stored experiment report is unreadable: " ++ e)) = true ↔
      stillRunning <:+: ' ' :: id.toList ∨ stillRunning <:+: ' ' :: e.toList := by
  have tail : (": " ++ ("stored experiment report is unreadable: " ++ e)).toList =
      ':' :: (" stored experiment report is unreadable".toList ++ ':' :: (' ' :: e.toList)) := by
    simp only [String.toList_append]
    rfl
  have inner : ¬ stillRunning <:+: " stored experiment report is unreadable".toList := by
    have absent : contains stillRunning " stored experiment report is unreadable".toList = false :=
      rfl
    intro held
    rw [contains_iff.mpr held] at absent
    cases absent
  rw [experimentUnreadable, String.append_assoc, running_iff_behind, tail,
    infix_append_cons_iff colon_free, infix_append_cons_iff colon_free]
  exact or_congr Iff.rfl (or_iff_right inner)

end NetObserver
