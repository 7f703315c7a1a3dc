import Mathlib.Order.Basic
import Mathlib.Data.List.Perm.Subperm

/-!
# Rows with versions

A table that others change.  Whenever a row is put there, or put there anew, it has a version that
its key never had before.  Two looks that find the same version then show that nothing happened to
the row between them, and a table that has as many rows as were looked at has no others.
-/

namespace Foundation

variable {κ ε ν : Type*}

/-- Every row that is new at an instant has a version that its key never had before. -/
def FreshVersions (version : ε → ν) (table : Nat → κ → Option ε) : Prop :=
  ∀ n k e, table (n + 1) k = some e → table n k ≠ some e →
    ∀ m ≤ n, ∀ e', table m k = some e' → version e' ≠ version e

variable {version : ε → ν} {table : Nat → κ → Option ε} {k : κ} {e e' : ε}

/-- What has the same version at two instants was there all the time between them. -/
theorem FreshVersions.unchanged (fresh : FreshVersions version table) {s t u : Nat}
    (first : table s k = some e) (last : table u k = some e') (same : version e' = version e)
    (early : s ≤ t) (late : t ≤ u) : table t k = some e := by
  induction u generalizing t e' with
  | zero =>
    obtain rfl : t = 0 := Nat.le_zero.mp late
    obtain rfl : s = 0 := Nat.le_zero.mp early
    exact first
  | succ u ih =>
    rcases Nat.eq_or_lt_of_le (Nat.le_trans early late) with here | before
    · obtain rfl : t = s := Nat.le_antisymm (here ▸ late) early
      exact first
    · have before := Nat.le_of_lt_succ before
      have stood : table u k = some e' := by
        by_contra changed
        exact fresh u k e' last changed s before e first same.symm
      rcases Nat.eq_or_lt_of_le late with rfl | within
      · rw [last, ← stood]
        exact ih stood same before (Nat.le_refl u)
      · exact ih stood same early (Nat.le_of_lt_succ within)

/-- Keys that are all there, as many as there are at all, are all that there are. -/
theorem mem_of_length {listed keys : List κ} (once : listed.Nodup)
    (there : ∀ k ∈ listed, k ∈ keys) (count : keys.length ≤ listed.length) (inside : k ∈ keys) :
    k ∈ listed :=
  ((List.subperm_of_subset once there).perm_of_length_le count).mem_iff.mpr inside

end Foundation
