import Mathlib.Tactic

/-!
# Lines

A sequence that arrives piece by piece, cut at a separator: the lines that have ended, without their
separator, and the one that has not.
-/

namespace Flightdeck

/-- A line break. -/
def NEWLINE : UInt8 := 10

variable {α : Type} [DecidableEq α] (sep : α)

/-- One element of the sequence. -/
def addToLines : List (List α) × List α → α → List (List α) × List α
  | (ended, rest), a => if a = sep then (ended ++ [rest], []) else (ended, rest ++ [a])

/-- The lines that have ended, and the rest. -/
def cutLines (sequence : List α) : List (List α) × List α :=
  sequence.foldl (addToLines sep) ([], [])

@[simp] theorem cutLines_nil : cutLines sep ([] : List α) = ([], []) := rfl

theorem cutLines_snoc (sequence : List α) (a : α) :
    cutLines sep (sequence ++ [a]) = addToLines sep (cutLines sep sequence) a := by
  simp [cutLines]

theorem cutLines_sep (sequence : List α) : cutLines sep (sequence ++ [sep]) =
    ((cutLines sep sequence).1 ++ [(cutLines sep sequence).2], []) := by
  rw [cutLines_snoc]
  exact if_pos rfl

theorem cutLines_other {a : α} (different : a ≠ sep) (sequence : List α) :
    cutLines sep (sequence ++ [a]) =
      ((cutLines sep sequence).1, (cutLines sep sequence).2 ++ [a]) := by
  rw [cutLines_snoc]
  exact if_neg different

/-- The lines and the rest are the sequence again. -/
theorem flatten_cutLines (sequence : List α) :
    ((cutLines sep sequence).1.map (· ++ [sep])).flatten ++ (cutLines sep sequence).2 =
      sequence := by
  induction sequence using List.reverseRecOn with
  | nil => rfl
  | append_singleton sequence a ih =>
    by_cases same : a = sep
    · subst same
      rw [cutLines_sep]
      conv_rhs => rw [← ih]
      simp
    · rw [cutLines_other sep same]
      conv_rhs => rw [← ih]
      simp

/-- No line has a separator in it, nor has the rest. -/
theorem notMem_cutLines (sequence : List α) :
    (∀ line ∈ (cutLines sep sequence).1, sep ∉ line) ∧ sep ∉ (cutLines sep sequence).2 := by
  induction sequence using List.reverseRecOn with
  | nil => simp
  | append_singleton sequence a ih =>
    by_cases same : a = sep
    · subst same
      rw [cutLines_sep]
      constructor
      · intro line there
        rcases List.mem_append.mp there with there | there
        · exact ih.1 line there
        · exact List.mem_singleton.mp there ▸ ih.2
      · simp
    · rw [cutLines_other sep same]
      refine ⟨ih.1, ?_⟩
      simp [ih.2, Ne.symm same]

/-- The lines of two sequences, where the first of the second continues the rest of the first. -/
def joinLines : List (List α) × List α → List (List α) × List α → List (List α) × List α
  | (ended, rest), ([], last) => (ended, rest ++ last)
  | (ended, rest), (line :: lines, last) => (ended ++ (rest ++ line) :: lines, last)

theorem cutLines_append (a b : List α) :
    cutLines sep (a ++ b) = joinLines (cutLines sep a) (cutLines sep b) := by
  induction b using List.reverseRecOn with
  | nil => simp [joinLines]
  | append_singleton b x ih =>
    rw [← List.append_assoc]
    by_cases same : x = sep
    · subst same
      rw [cutLines_sep, cutLines_sep, ih]
      rcases cutLines x b with ⟨_ | ⟨line, lines⟩, last⟩
      · rfl
      · simp [joinLines]
    · rw [cutLines_other sep same, cutLines_other sep same, ih]
      rcases cutLines sep b with ⟨_ | ⟨line, lines⟩, last⟩
      · simp [joinLines]
      · rfl

theorem cutLines_of_notMem {sequence : List α} (absent : sep ∉ sequence) :
    cutLines sep sequence = ([], sequence) := by
  induction sequence using List.reverseRecOn with
  | nil => rfl
  | append_singleton sequence a ih =>
    simp only [List.mem_append, List.mem_singleton, not_or] at absent
    rw [cutLines_other sep (Ne.symm absent.2), ih absent.1]

/-- Lines that each have ended are cut where they ended. -/
theorem cutLines_ended (lines : List (List α)) (clean : ∀ line ∈ lines, sep ∉ line) :
    cutLines sep (lines.flatMap (· ++ [sep])) = (lines, []) := by
  induction lines with
  | nil => rfl
  | cons line lines ih =>
    have rest := ih fun line there => clean line (List.mem_cons_of_mem _ there)
    rw [List.flatMap_cons, cutLines_append, cutLines_sep,
      cutLines_of_notMem sep (clean line (List.mem_cons_self ..)), rest]
    cases lines with
    | nil => rfl
    | cons next lines => rfl

/-! ## Lines with their separator -/

/-- The sequence cut after each separator. -/
def splitInclusive : List α → List (List α)
  | [] => []
  | a :: rest =>
    if a = sep then [a] :: splitInclusive rest
    else
      match splitInclusive rest with
      | [] => [[a]]
      | line :: lines => (a :: line) :: lines

/-- A line with its separator at the end. -/
def Ended (line : List α) : Prop := ∃ body, sep ∉ body ∧ line = body ++ [sep]

/-- Lines that a sequence is cut into: each has its separator, but for the last. -/
def Cut : List (List α) → Prop
  | [] => True
  | line :: lines => Ended sep line ∧ Cut lines ∨ (line ≠ [] ∧ sep ∉ line) ∧ lines = []

theorem flatten_splitInclusive (sequence : List α) :
    (splitInclusive sep sequence).flatten = sequence := by
  induction sequence with
  | nil => rfl
  | cons a rest ih =>
    unfold splitInclusive
    split
    · rw [List.flatten_cons, ih]
      rfl
    · split
      · next empty =>
        rw [empty] at ih
        rw [← ih]
        rfl
      · next line lines cut =>
        rw [cut] at ih
        rw [← ih]
        rfl

theorem cut_splitInclusive (sequence : List α) : Cut sep (splitInclusive sep sequence) := by
  induction sequence with
  | nil => trivial
  | cons a rest ih =>
    unfold splitInclusive
    by_cases same : a = sep
    · rw [if_pos same]
      exact .inl ⟨⟨[], by simp, by rw [same]; rfl⟩, ih⟩
    · rw [if_neg same]
      split
      · exact .inr ⟨⟨by simp, by simpa using Ne.symm same⟩, rfl⟩
      · next line lines cut =>
        rw [cut] at ih
        rcases ih with ⟨⟨body, absent, rfl⟩, later⟩ | ⟨⟨-, absent⟩, last⟩
        · refine .inl ⟨⟨a :: body, ?_, rfl⟩, later⟩
          simp [absent, Ne.symm same]
        · exact .inr ⟨⟨by simp, by simp [absent, Ne.symm same]⟩, last⟩

theorem splitInclusive_ended {line : List α} (ended : Ended sep line) (rest : List α) :
    splitInclusive sep (line ++ rest) = line :: splitInclusive sep rest := by
  obtain ⟨body, absent, rfl⟩ := ended
  induction body with
  | nil => exact if_pos rfl
  | cons a body ih =>
    simp only [List.mem_cons, not_or] at absent
    have later := ih absent.2
    simp only [List.cons_append, splitInclusive, if_neg (Ne.symm absent.1)]
    rw [later]

theorem splitInclusive_open {line : List α} (some : line ≠ []) (absent : sep ∉ line) :
    splitInclusive sep line = [line] := by
  induction line with
  | nil => contradiction
  | cons a line ih =>
    simp only [List.mem_cons, not_or] at absent
    rw [splitInclusive, if_neg (Ne.symm absent.1)]
    cases line with
    | nil => rfl
    | cons b line => rw [ih (by simp) absent.2]

/-- Lines that were cut are cut the same way again. -/
theorem splitInclusive_flatten (lines : List (List α)) (cut : Cut sep lines) :
    splitInclusive sep lines.flatten = lines := by
  induction lines with
  | nil => rfl
  | cons line lines ih =>
    rcases cut with ⟨ended, later⟩ | ⟨⟨some, absent⟩, rfl⟩
    · rw [List.flatten_cons, splitInclusive_ended sep ended, ih later]
    · simpa using splitInclusive_open sep some absent

/-- Both ways to cut a sequence give the same lines. -/
theorem splitInclusive_cutLines (sequence : List α) :
    splitInclusive sep sequence = (cutLines sep sequence).1.map (· ++ [sep]) ++
      if (cutLines sep sequence).2 = [] then [] else [(cutLines sep sequence).2] := by
  have ⟨clean, last⟩ := notMem_cutLines sep sequence
  conv_lhs => rw [← flatten_cutLines sep sequence]
  generalize (cutLines sep sequence).1 = ended at clean
  generalize (cutLines sep sequence).2 = rest at last
  induction ended with
  | nil =>
    by_cases none : rest = []
    · rw [none]
      rfl
    · rw [if_neg none]
      exact splitInclusive_open sep none last
  | cons line ended ih =>
    have ⟨first, later⟩ := List.forall_mem_cons.mp clean
    rw [List.map_cons, List.flatten_cons, List.append_assoc,
      splitInclusive_ended sep ⟨line, first, rfl⟩, ih later]
    rfl

end Flightdeck
