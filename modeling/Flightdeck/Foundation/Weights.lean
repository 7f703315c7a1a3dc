import Flightdeck.Foundation.TextMap

/-!
# The weight of a map

The sum of the weights of the values of an ordered map, and how it changes with one entry.
-/

namespace Foundation

open Std (ExtTreeMap)

variable {κ β : Type} {cmp : κ → κ → Ordering} [Std.TransCmp cmp] [Std.LawfulEqCmp cmp]
  (weight : β → Nat)

def totalWeight (m : ExtTreeMap κ β cmp) : Nat := (m.toList.map fun row => weight row.2).sum

omit [Std.LawfulEqCmp cmp] in
theorem totalWeight_empty : totalWeight weight (∅ : ExtTreeMap κ β cmp) = 0 := by
  have hnil : (∅ : ExtTreeMap κ β cmp).toList = [] := by
    apply List.isEmpty_iff.mp
    rw [ExtTreeMap.isEmpty_toList]
    exact ExtTreeMap.isEmpty_empty
  rw [totalWeight, hnil]
  rfl

theorem mem_toList_iff {m : ExtTreeMap κ β cmp} {row : κ × β} :
    row ∈ m.toList ↔ m[row.1]? = some row.2 := by
  obtain ⟨k, v⟩ := row
  exact ExtTreeMap.mem_toList_iff_getElem?_eq_some

omit [Std.LawfulEqCmp cmp] in
theorem nodup_toList (m : ExtTreeMap κ β cmp) : m.toList.Nodup :=
  List.Nodup.of_map _ (nodup_keys_toList m)

/-- Apart from its entry, a map has the entries of the map without it. -/
theorem toList_perm_cons_erase {m : ExtTreeMap κ β cmp} {k : κ} {v : β} (h : m[k]? = some v) :
    m.toList.Perm ((k, v) :: (m.erase k).toList) := by
  classical
  have hfresh : (k, v) ∉ (m.erase k).toList := by
    intro hmem
    rw [mem_toList_iff, getElem?_erase_eq, if_pos rfl] at hmem
    cases hmem
  apply (List.perm_ext_iff_of_nodup (nodup_toList m)
    (List.nodup_cons.mpr ⟨hfresh, nodup_toList _⟩)).mpr
  intro row
  rw [List.mem_cons, mem_toList_iff, mem_toList_iff, getElem?_erase_eq]
  by_cases hk : k = row.1
  · rw [if_pos hk, ← hk, h]
    constructor
    · intro heq
      exact .inl (Prod.ext hk.symm (Option.some_inj.mp heq).symm)
    · intro heq
      rcases heq with rfl | heq
      · rfl
      · cases heq
  · rw [if_neg hk]
    constructor
    · exact .inr
    · intro heq
      rcases heq with rfl | heq
      · exact absurd rfl hk
      · exact heq

theorem totalWeight_erase {m : ExtTreeMap κ β cmp} {k : κ} {v : β} (h : m[k]? = some v) :
    totalWeight weight m = weight v + totalWeight weight (m.erase k) := by
  have hperm := (toList_perm_cons_erase h).map fun row => weight row.2
  exact hperm.sum_eq

theorem totalWeight_insertIfNew {m : ExtTreeMap κ β cmp} {k : κ} (v : β) (h : m[k]? = none) :
    totalWeight weight (m.insertIfNew k v) = weight v + totalWeight weight m := by
  classical
  have hk : k ∉ m := by
    rw [ExtTreeMap.mem_iff_isSome_getElem?, h]
    simp
  have hnew : (m.insertIfNew k v)[k]? = some v := by
    rw [ExtTreeMap.getElem?_insertIfNew, if_pos ⟨Std.LawfulEqCmp.compare_eq_iff_eq.mpr rfl, hk⟩]
  have herase : (m.insertIfNew k v).erase k = m := by
    apply ExtTreeMap.ext_getElem?
    intro a
    rw [getElem?_erase_eq]
    by_cases ha : k = a
    · rw [if_pos ha, ← ha, h]
    · rw [if_neg ha, ExtTreeMap.getElem?_insertIfNew, if_neg]
      exact fun heq => ha (Std.LawfulEqCmp.compare_eq_iff_eq.mp heq.1)
  rw [totalWeight_erase weight hnew, herase]

end Foundation
