import Mathlib.Tactic

/-!
# Three-way merge

The merge of two values against a common ancestor.  A value changed on one side only wins over the
untouched one; two different changes have no merge.
-/

namespace Foundation.ThreeWay

variable {α : Type} [DecidableEq α]

def merge (left right ancestor : α) : Option α :=
  if left = right then some left
  else if left = ancestor then some right
  else if right = ancestor then some left
  else none

variable {l r o t : α}

theorem merge_self (l o : α) : merge l l o = some l := if_pos rfl

theorem merge_left_unchanged (r o : α) : merge o r o = some r := by
  unfold merge
  by_cases h : o = r
  · rw [if_pos h, h]
  · rw [if_neg h, if_pos rfl]

theorem merge_comm (l r o : α) : merge l r o = merge r l o := by
  unfold merge
  by_cases hlr : l = r
  · rw [if_pos hlr, if_pos hlr.symm, hlr]
  · rw [if_neg hlr, if_neg (Ne.symm hlr)]
    by_cases hl : l = o
    · have hr : r ≠ o := fun h => hlr (hl.trans h.symm)
      rw [if_pos hl, if_neg hr, if_pos hl]
    · rw [if_neg hl, if_neg hl]

theorem merge_right_unchanged (l o : α) : merge l o o = some l := by
  rw [merge_comm]
  exact merge_left_unchanged l o

theorem merge_eq_none : merge l r o = none ↔ l ≠ r ∧ l ≠ o ∧ r ≠ o := by
  unfold merge
  split_ifs <;> simp_all

/-- The merge is one of the two sides. -/
theorem merge_mem (h : merge l r o = some t) : t = l ∨ t = r := by
  unfold merge at h
  split_ifs at h <;> simp_all

/-- Merging again after one side has taken the merge gives the same. -/
theorem merge_retry (h : merge l r o = some t) : merge t r o = some t := by
  unfold merge at h ⊢
  split_ifs at h <;> split_ifs <;> simp_all

end Foundation.ThreeWay
