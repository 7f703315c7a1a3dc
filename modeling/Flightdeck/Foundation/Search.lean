import Mathlib.Data.List.Infix
import Mathlib.Tactic

/-!
# Searching a text

The first place of a pattern in a text, the number of places that do not overlap, and what is left
when the first place is taken out.
-/

namespace Foundation

variable {α : Type} [DecidableEq α]

/-- The text before and after the first place of the pattern. -/
def breakOn (pattern : List α) : List α → Option (List α × List α)
  | [] => if pattern = [] then some ([], []) else none
  | c :: text =>
    if pattern <+: c :: text then some ([], (c :: text).drop pattern.length)
    else (breakOn pattern text).map fun parts => (c :: parts.1, parts.2)

/-- `str::contains` -/
def occurs (pattern text : List α) : Bool := (breakOn pattern text).isSome

/-- `str::replacen` with an empty text and at most one place. -/
def takeOut (pattern text : List α) : List α :=
  match breakOn pattern text with
  | none => text
  | some (before, after) => before ++ after

def placesFrom (pattern : List α) : Nat → List α → Nat
  | 0, _ => 0
  | fuel + 1, text =>
    match breakOn pattern text with
    | none => 0
    | some (_, after) => placesFrom pattern fuel after + 1

/-- `str::matches` and `count`, for a pattern that is not empty. -/
def places (pattern text : List α) : Nat := placesFrom pattern text.length text

variable {pattern text before after : List α}

theorem breakOn_eq (h : breakOn pattern text = some (before, after)) :
    text = before ++ pattern ++ after := by
  induction text generalizing before after with
  | nil =>
    rw [breakOn] at h
    split at h
    · rename_i hempty
      cases h
      rw [hempty]
      rfl
    · cases h
  | cons c text ih =>
    rw [breakOn] at h
    split at h
    · rename_i hhere
      obtain ⟨rest, hrest⟩ := hhere
      cases h
      rw [← hrest, List.drop_left, List.nil_append]
    · cases hlater : breakOn pattern text with
      | none =>
        rw [hlater] at h
        cases h
      | some parts =>
        rw [hlater] at h
        cases h
        rw [List.cons_append, List.cons_append, ← ih hlater]

theorem breakOn_eq_none : breakOn pattern text = none ↔ ¬pattern <:+: text := by
  induction text with
  | nil =>
    rw [breakOn, List.infix_nil]
    split
    · rename_i hempty
      simp [hempty]
    · rename_i hne
      simp [hne]
  | cons c text ih =>
    rw [breakOn, List.infix_cons_iff, not_or]
    split
    · rename_i hhere
      simp [hhere]
    · rename_i hnot
      rw [Option.map_eq_none_iff, ih]
      exact (and_iff_right hnot).symm

theorem occurs_iff : occurs pattern text = true ↔ pattern <:+: text := by
  rw [occurs, Option.isSome_iff_ne_none, ne_eq, breakOn_eq_none, not_not]

theorem takeOut_of_absent (h : ¬pattern <:+: text) : takeOut pattern text = text := by
  rw [takeOut, breakOn_eq_none.mpr h]

theorem places_pos (hfuel : 0 < text.length) (h : pattern <:+: text) :
    0 < places pattern text := by
  obtain ⟨fuel, hfuel⟩ := Nat.exists_eq_succ_of_ne_zero hfuel.ne'
  rw [places, hfuel, placesFrom]
  cases hbreak : breakOn pattern text with
  | none => exact absurd h (breakOn_eq_none.mp hbreak)
  | some parts => exact Nat.succ_pos _

theorem places_eq_zero (hpattern : pattern ≠ []) : places pattern text = 0 ↔ ¬pattern <:+: text := by
  constructor
  · intro hzero h
    have hlength := h.length_le
    have hpos := List.length_pos_of_ne_nil hpattern
    have hplaces := places_pos (by omega) h
    omega
  · intro h
    rw [places]
    cases text.length with
    | zero => rfl
    | succ fuel => rw [placesFrom, breakOn_eq_none.mpr h]

/-- The pattern has one place in the text, and none in what is left without it. -/
def OnePlace (pattern text : List α) : Prop :=
  ∃ before after, text = before ++ pattern ++ after ∧ ¬pattern <:+: before ++ after ∧
    ∀ before' after', text = before' ++ pattern ++ after' → before' = before

omit [DecidableEq α] in
theorem OnePlace.infix (h : OnePlace pattern text) : pattern <:+: text := by
  obtain ⟨before, after, htext, -, -⟩ := h
  exact ⟨before, after, htext.symm⟩

theorem OnePlace.takeOut_free (h : OnePlace pattern text) : ¬pattern <:+: takeOut pattern text := by
  have hin := h.infix
  obtain ⟨before, after, htext, hfree, hunique⟩ := h
  rw [takeOut]
  cases hbreak : breakOn pattern text with
  | none => exact absurd hin (breakOn_eq_none.mp hbreak)
  | some parts =>
    have heq := breakOn_eq hbreak
    have hbefore := hunique _ _ heq
    rw [heq, hbefore] at htext
    dsimp only
    rw [hbefore, List.append_cancel_left htext]
    exact hfree

/-- A pattern at the end of a text that it cannot reach into. -/
theorem onePlace_append (hfree : ¬pattern <:+: text)
    (hunique : ∀ before after, text ++ pattern = before ++ pattern ++ after → before = text) :
    OnePlace pattern (text ++ pattern) ∧ takeOut pattern (text ++ pattern) = text := by
  constructor
  · refine ⟨text, [], (List.append_nil _).symm, ?_, hunique⟩
    rwa [List.append_nil]
  · rw [takeOut]
    cases hbreak : breakOn pattern (text ++ pattern) with
    | none => exact absurd (List.suffix_append text pattern).isInfix (breakOn_eq_none.mp hbreak)
    | some parts =>
      have heq := breakOn_eq hbreak
      have hbefore := hunique _ _ heq
      rw [hbefore] at heq
      have hafter := congrArg List.length heq
      rw [List.length_append, List.length_append, List.length_append] at hafter
      have hnil : parts.2 = [] := List.length_eq_zero_iff.mp (by omega)
      dsimp only
      rw [hbefore, hnil, List.append_nil]

end Foundation
