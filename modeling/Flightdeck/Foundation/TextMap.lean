import Mathlib.Data.String.Basic
import Mathlib.Tactic
import Std.Data.ExtTreeMap

/-!
# Strings by their bytes, and maps ordered by them

A string is its UTF-8 bytes, and ordered maps over strings iterate in byte order.  A map is the
same thing as its strictly ascending list of entries; inserting the entries of any list without
duplicate keys gives the map of the sorted list.
-/

namespace Foundation

abbrev Bytes := List UInt8

def utf8 (s : String) : Bytes := s.toByteArray.data.toList

theorem utf8_inj {s t : String} : utf8 s = utf8 t ↔ s = t := by
  simp only [utf8, Array.toList_inj]
  constructor
  · intro h
    exact String.toByteArray_inj.mp (ByteArray.ext h)
  · rintro rfl
    rfl

theorem utf8_append (s t : String) : utf8 (s ++ t) = utf8 s ++ utf8 t := by
  simp [utf8]

theorem utf8_ofList (l : List Char) : utf8 (String.ofList l) = l.flatMap String.utf8EncodeChar := by
  simp [utf8, List.utf8Encode]

/-- The order of `str`: lexicographic in the bytes. -/
def byteOrder : String → String → Ordering := compareOn utf8

instance : Std.TransCmp byteOrder := inferInstanceAs (Std.TransCmp (compareOn utf8))

instance : Std.LawfulEqCmp byteOrder where
  eq_of_compare h := utf8_inj.mp (Std.LawfulEqOrd.eq_of_compare h)

/-- A map with string keys, iterated in the byte order of the keys. -/
abbrev TextMap (β : Type) := Std.ExtTreeMap String β byteOrder

/-- A set of strings, iterated in byte order. -/
abbrev TextSet := TextMap Unit

/-! ## Maps over any lawful order -/

section

variable {κ β : Type} {cmp : κ → κ → Ordering} [Std.TransCmp cmp] [Std.LawfulEqCmp cmp]

open Std (ExtTreeMap)

/-- The entries are inserted one after the other. -/
def insertAll (m : ExtTreeMap κ β cmp) (rows : List (κ × β)) : ExtTreeMap κ β cmp :=
  rows.foldl (fun m row => m.insert row.1 row.2) m

theorem getElem?_insert_eq [DecidableEq κ] (m : ExtTreeMap κ β cmp) (k a : κ) (v : β) :
    (m.insert k v)[a]? = if k = a then some v else m[a]? := by
  rw [ExtTreeMap.getElem?_insert]
  simp only [Std.LawfulEqCmp.compare_eq_iff_eq]

theorem getElem?_erase_eq [DecidableEq κ] (m : ExtTreeMap κ β cmp) (k a : κ) :
    (m.erase k)[a]? = if k = a then none else m[a]? := by
  rw [ExtTreeMap.getElem?_erase]
  simp only [Std.LawfulEqCmp.compare_eq_iff_eq]

theorem getElem?_insertAll_of_notMem {m : ExtTreeMap κ β cmp} {rows : List (κ × β)} {k : κ}
    (h : k ∉ rows.map Prod.fst) : (insertAll m rows)[k]? = m[k]? := by
  classical
  induction rows generalizing m with
  | nil => rfl
  | cons row rows ih =>
    simp only [List.map_cons, List.mem_cons, not_or] at h
    change (insertAll (m.insert row.1 row.2) rows)[k]? = _
    rw [ih h.2, getElem?_insert_eq, if_neg (Ne.symm h.1)]

theorem getElem?_insertAll_of_mem {m : ExtTreeMap κ β cmp} {rows : List (κ × β)} {k : κ} {v : β}
    (hrows : (rows.map Prod.fst).Nodup) (h : (k, v) ∈ rows) :
    (insertAll m rows)[k]? = some v := by
  classical
  induction rows generalizing m with
  | nil => cases h
  | cons row rows ih =>
    simp only [List.map_cons, List.nodup_cons] at hrows
    change (insertAll (m.insert row.1 row.2) rows)[k]? = _
    rcases List.mem_cons.mp h with rfl | h
    · rw [getElem?_insertAll_of_notMem hrows.1, getElem?_insert_eq, if_pos rfl]
    · exact ih hrows.2 h

theorem mem_insertAll {m : ExtTreeMap κ β cmp} {rows : List (κ × β)} {k : κ} :
    k ∈ insertAll m rows ↔ k ∈ m ∨ k ∈ rows.map Prod.fst := by
  induction rows generalizing m with
  | nil => simp [insertAll]
  | cons row rows ih =>
    change k ∈ insertAll (m.insert row.1 row.2) rows ↔ _
    rw [ih, ExtTreeMap.mem_insert, Std.LawfulEqCmp.compare_eq_iff_eq, List.map_cons, List.mem_cons]
    tauto

omit [Std.LawfulEqCmp cmp] in
theorem nodup_keys_toList (m : ExtTreeMap κ β cmp) : (m.toList.map Prod.fst).Nodup := by
  rw [ExtTreeMap.map_fst_toList_eq_keys]
  exact ExtTreeMap.nodup_keys

/-- The map of a list without duplicate keys holds exactly the entries of the list. -/
theorem mem_toList_insertAll {rows : List (κ × β)} (h : (rows.map Prod.fst).Nodup)
    (row : κ × β) : row ∈ (insertAll (∅ : ExtTreeMap κ β cmp) rows).toList ↔ row ∈ rows := by
  obtain ⟨k, v⟩ := row
  rw [ExtTreeMap.mem_toList_iff_getElem?_eq_some]
  constructor
  · intro hk
    by_cases hmem : k ∈ rows.map Prod.fst
    · obtain ⟨⟨k', w⟩, hw, rfl⟩ := List.mem_map.mp hmem
      rw [getElem?_insertAll_of_mem h hw] at hk
      cases hk
      exact hw
    · rw [getElem?_insertAll_of_notMem hmem] at hk
      simp at hk
  · exact getElem?_insertAll_of_mem h

theorem toList_insertAll_perm {rows : List (κ × β)} (h : (rows.map Prod.fst).Nodup) :
    (insertAll (∅ : ExtTreeMap κ β cmp) rows).toList.Perm rows :=
  (List.perm_ext_iff_of_nodup (List.Nodup.of_map _ (nodup_keys_toList _))
    (List.Nodup.of_map _ h)).mpr (mem_toList_insertAll h)

/-- Entries in strictly ascending key order are the entry list of their map. -/
theorem toList_insertAll_of_sorted {rows : List (κ × β)}
    (h : rows.Pairwise fun a b => cmp a.1 b.1 = .lt) :
    (insertAll (∅ : ExtTreeMap κ β cmp) rows).toList = rows := by
  have hnodup : (rows.map Prod.fst).Nodup := by
    refine List.pairwise_map.mpr (h.imp fun {a b} hab heq => ?_)
    exact Std.OrientedCmp.not_lt_of_lt hab (heq ▸ hab)
  have hasymm (a b : κ × β) (_ : a ∈ (insertAll (∅ : ExtTreeMap κ β cmp) rows).toList)
      (_ : b ∈ rows) (hab : cmp a.1 b.1 = .lt) (hba : cmp b.1 a.1 = .lt) : a = b :=
    absurd hba (Std.OrientedCmp.not_lt_of_lt hab)
  exact List.Perm.eq_of_pairwise hasymm ExtTreeMap.ordered_keys_toList h
    (toList_insertAll_perm hnodup)

theorem insertAll_toList (m : ExtTreeMap κ β cmp) : insertAll ∅ m.toList = m :=
  ExtTreeMap.toList_inj.mp (toList_insertAll_of_sorted ExtTreeMap.ordered_keys_toList)

end

/-! ## Maps that only grow -/

/-- Every entry stays. -/
def Included {β : Type} (m m' : TextMap β) : Prop :=
  ∀ (key : String) value, m[key]? = some value → m'[key]? = some value

theorem Included.refl {β : Type} (m : TextMap β) : Included m m := fun _ _ h => h

theorem Included.trans {β : Type} {a b c : TextMap β} (hab : Included a b) (hbc : Included b c) :
    Included a c := fun key value h => hbc key value (hab key value h)

theorem Included.insert {β : Type} {m : TextMap β} {key : String} (value : β)
    (h : m.contains key = false) : Included m (m.insert key value) := by
  intro key' value' hvalue
  have hne : key ≠ key' := by
    rintro rfl
    rw [Std.ExtTreeMap.contains_eq_isSome_getElem?, hvalue] at h
    cases h
  rw [getElem?_insert_eq, if_neg hne]
  exact hvalue

/-- The values in the order of their keys. -/
def values {β : Type} (m : TextMap β) : List β := m.toList.map Prod.snd

theorem mem_values {β : Type} {m : TextMap β} {value : β} :
    value ∈ values m ↔ ∃ key : String, m[key]? = some value := by
  simp only [values, List.mem_map, Prod.exists, exists_eq_right,
    Std.ExtTreeMap.mem_toList_iff_getElem?_eq_some]

end Foundation
