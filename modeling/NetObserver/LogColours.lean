import NetObserver.LogLine

/-! Colour sequences between the pieces of a text, and what a scan for escapes leaves of them. -/

namespace NetObserver
namespace SingboxLog

namespace Scan

theorem strip_append (scan : Scan) (a b : List Char) :
    scan.strip (a ++ b) = scan.strip a ++ (scan.after a).strip b := by
  induction a generalizing scan with
  | nil => rfl
  | cons c a ih =>
    have rest := ih (scan.step c).1
    simp only [List.cons_append, strip, after, List.foldl_cons]
    split
    next => rw [rest, List.cons_append, after]
    next => rw [rest, after]

theorem after_append (scan : Scan) (a b : List Char) :
    scan.after (a ++ b) = (scan.after a).after b := List.foldl_append

theorem strip_cons (scan : Scan) (c : Char) (rest : List Char) :
    scan.strip (c :: rest) =
      if (scan.step c).2 then c :: (scan.step c).1.strip rest else (scan.step c).1.strip rest := rfl

theorem strip_sublist (scan : Scan) (s : List Char) : (scan.strip s).Sublist s := by
  induction s generalizing scan with
  | nil => exact List.Sublist.refl []
  | cons c s ih =>
    rw [strip_cons]
    split
    next => exact (ih _).cons_cons c
    next => exact (ih _).cons c

theorem esc_notMem_strip (scan : Scan) (s : List Char) : esc ∉ scan.strip s := by
  induction s generalizing scan with
  | nil => exact List.not_mem_nil
  | cons c s ih =>
    rw [strip_cons]
    split
    next stays =>
      rw [List.mem_cons, not_or]
      refine ⟨?_, ih _⟩
      intro same
      subst same
      cases scan
      all_goals simp [step] at stays
    next => exact ih _

theorem step_plain {c : Char} (plain : c ≠ esc) : text.step c = (text, true) := if_neg plain

theorem after_plain {s : List Char} (plain : esc ∉ s) : text.after s = text := by
  induction s with
  | nil => rfl
  | cons c s ih =>
    rw [List.mem_cons, not_or] at plain
    rw [after, List.foldl_cons, step_plain (Ne.symm plain.1)]
    exact ih plain.2

theorem strip_plain {s : List Char} (plain : esc ∉ s) : text.strip s = s := by
  induction s with
  | nil => rfl
  | cons c s ih =>
    rw [List.mem_cons, not_or] at plain
    rw [strip_cons, step_plain (Ne.symm plain.1), if_pos rfl, ih plain.2]

theorem after_params {s : List Char} (inside : s.any isFinal = false) :
    params.after s = params := by
  induction s with
  | nil => rfl
  | cons c s ih =>
    rw [List.any_cons, Bool.or_eq_false_iff] at inside
    have stays : params.step c = (params, false) := by simp [step, inside.1]
    rw [after, List.foldl_cons, stays]
    exact ih inside.2

theorem strip_params {s : List Char} (inside : s.any isFinal = false) :
    params.strip s = [] := by
  induction s with
  | nil => rfl
  | cons c s ih =>
    rw [List.any_cons, Bool.or_eq_false_iff] at inside
    have stays : params.step c = (params, false) := by simp [step, inside.1]
    rw [strip_cons, stays, if_neg (by decide)]
    exact ih inside.2

end Scan

/-- `ESC [ … m`. -/
structure Colour where
  params : List Char
  inside : params.any isFinal = false

namespace Colour

def text (colour : Colour) : List Char := esc :: '[' :: (colour.params ++ ['m'])

theorem after_text (colour : Colour) : Scan.text.after colour.text = .text := by
  have opened : Scan.text.after (esc :: '[' :: (colour.params ++ ['m'])) =
      Scan.params.after (colour.params ++ ['m']) := rfl
  rw [text, opened, Scan.after_append, Scan.after_params colour.inside]
  rfl

theorem strip_text (colour : Colour) : Scan.text.strip colour.text = [] := by
  have opened : Scan.text.strip (esc :: '[' :: (colour.params ++ ['m'])) =
      Scan.params.strip (colour.params ++ ['m']) := rfl
  rw [text, opened, Scan.strip_append, Scan.after_params colour.inside,
    Scan.strip_params colour.inside]
  rfl

theorem bracket_notMem_text (colour : Colour) : ']' ∉ colour.text := by
  intro mem
  simp only [text, List.mem_cons, List.mem_append] at mem
  rcases mem with h | h | h | h
  · cases h
  · cases h
  · exact List.any_eq_false.mp colour.inside ']' h (by decide)
  · simp at h

end Colour

def colourRun (colours : List Colour) : List Char := colours.flatMap Colour.text

theorem after_colourRun (colours : List Colour) : Scan.text.after (colourRun colours) = .text := by
  induction colours with
  | nil => rfl
  | cons c colours ih =>
    rw [colourRun, List.flatMap_cons, Scan.after_append, c.after_text]
    exact ih

theorem strip_colourRun (colours : List Colour) : Scan.text.strip (colourRun colours) = [] := by
  induction colours with
  | nil => rfl
  | cons c colours ih =>
    rw [colourRun, List.flatMap_cons, Scan.strip_append, c.after_text, c.strip_text]
    exact ih

theorem bracket_notMem_colourRun (colours : List Colour) : ']' ∉ colourRun colours := by
  intro mem
  obtain ⟨c, _, mem⟩ := List.mem_flatMap.mp mem
  exact c.bracket_notMem_text mem

section

variable (colours : Nat → List Colour)

/-- The pieces from the `i`th gap on, a run of colours in front of each. -/
def paint (i : Nat) : List (List Char) → List Char
  | [] => []
  | piece :: pieces => colourRun (colours i) ++ (piece ++ paint (i + 1) pieces)

theorem paint_append (i : Nat) (a b : List (List Char)) :
    paint colours i (a ++ b) = paint colours i a ++ paint colours (i + a.length) b := by
  induction a generalizing i with
  | nil => rfl
  | cons piece a ih =>
    simp only [List.cons_append, paint, ih, List.append_assoc, List.length_cons]
    rw [Nat.add_right_comm, Nat.add_assoc]

theorem after_paint (i : Nat) {pieces : List (List Char)} (plain : ∀ piece ∈ pieces, esc ∉ piece) :
    Scan.text.after (paint colours i pieces) = .text := by
  induction pieces generalizing i with
  | nil => rfl
  | cons piece pieces ih =>
    rw [paint, Scan.after_append, after_colourRun, Scan.after_append,
      Scan.after_plain (plain piece List.mem_cons_self)]
    exact ih (i + 1) fun other mem => plain other (List.mem_cons_of_mem piece mem)

/-- Colours around pieces without escapes leave no trace. -/
theorem strip_paint (i : Nat) {pieces : List (List Char)} (plain : ∀ piece ∈ pieces, esc ∉ piece) :
    Scan.text.strip (paint colours i pieces) = pieces.flatten := by
  induction pieces generalizing i with
  | nil => rfl
  | cons piece pieces ih =>
    have here := plain piece List.mem_cons_self
    rw [paint, Scan.strip_append, strip_colourRun, after_colourRun, Scan.strip_append,
      Scan.strip_plain here, Scan.after_plain here, List.flatten_cons, List.nil_append,
      ih (i + 1) fun other mem => plain other (List.mem_cons_of_mem piece mem)]

theorem bracket_notMem_paint (i : Nat) {pieces : List (List Char)}
    (plain : ∀ piece ∈ pieces, ']' ∉ piece) : ']' ∉ paint colours i pieces := by
  induction pieces generalizing i with
  | nil => exact List.not_mem_nil
  | cons piece pieces ih =>
    rw [paint, List.mem_append, List.mem_append, not_or, not_or]
    exact ⟨bracket_notMem_colourRun _, plain piece List.mem_cons_self,
      ih (i + 1) fun other mem => plain other (List.mem_cons_of_mem piece mem)⟩

end

end SingboxLog
end NetObserver
