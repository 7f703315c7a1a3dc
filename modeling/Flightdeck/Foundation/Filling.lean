import Flightdeck.Foundation.TextMap

/-!
# Maps that are filled with checks

A map that is filled row by row, where a row must agree with what is there, or must be new.  Whether
the rows fill it, and what they fill it to, does not depend on their order.
-/

namespace Foundation

open Std (ExtTreeMap)

variable {κ β : Type} {cmp : κ → κ → Ordering} [Std.TransCmp cmp] [Std.LawfulEqCmp cmp]
  {m m' : ExtTreeMap κ β cmp} {rows rows' : List (κ × β)}

/-- The row is added, unless the map says something else of its key. -/
def addAgreeing [DecidableEq β] (m : ExtTreeMap κ β cmp) (row : κ × β) :
    Option (ExtTreeMap κ β cmp) :=
  match m[row.1]? with
  | some value => if value = row.2 then some m else none
  | none => some (m.insert row.1 row.2)

/-- The row is added, unless its key is in the map. -/
def addNew (m : ExtTreeMap κ β cmp) (row : κ × β) : Option (ExtTreeMap κ β cmp) :=
  if m.contains row.1 then none else some (m.insert row.1 row.2)

/-- No two rows say different things of one key. -/
def Functional (rows : List (κ × β)) : Prop := ∀ a ∈ rows, ∀ b ∈ rows, a.1 = b.1 → a.2 = b.2

theorem Functional.perm (h : Functional rows) (perm : rows.Perm rows') : Functional rows' :=
  fun a there b there' => h a (perm.mem_iff.mpr there) b (perm.mem_iff.mpr there')

theorem functional_of_nodup (nodup : (rows.map Prod.fst).Nodup) : Functional rows := by
  intro a there b there' same
  rw [List.inj_on_of_nodup_map nodup there there' same]

theorem functional_cons {row : κ × β} : Functional (row :: rows) ↔
    (∀ other ∈ rows, row.1 = other.1 → row.2 = other.2) ∧ Functional rows := by
  constructor
  · intro h
    constructor
    · exact fun other there => h row (List.mem_cons_self ..) other (List.mem_cons_of_mem _ there)
    · exact fun a there b there' =>
        h a (List.mem_cons_of_mem _ there) b (List.mem_cons_of_mem _ there')
  · intro ⟨first, h⟩ a there b there' same
    rcases List.mem_cons.mp there with rfl | inside
    · rcases List.mem_cons.mp there' with rfl | inside'
      · rfl
      · exact first b inside' same
    · rcases List.mem_cons.mp there' with rfl | inside'
      · exact (first a inside same.symm).symm
      · exact h a inside b inside' same

/-- An entry that is inserted again changes nothing. -/
theorem insert_same {k : κ} {v : β} (known : m[k]? = some v) : m.insert k v = m := by
  classical
  apply ExtTreeMap.ext_getElem?
  intro key
  rw [getElem?_insert_eq]
  split
  · next same => rw [← same, known]
  · rfl

/-- What a key has after the rows were inserted. -/
theorem getElem?_insertAll_iff (h : Functional rows) {k : κ} {v : β} :
    (insertAll m rows)[k]? = some v ↔
      (k, v) ∈ rows ∨ k ∉ rows.map Prod.fst ∧ m[k]? = some v := by
  classical
  induction rows generalizing m with
  | nil => simp [insertAll]
  | cons row rows ih =>
    obtain ⟨key, value⟩ := row
    obtain ⟨first, rest⟩ := functional_cons.mp h
    show (insertAll (m.insert key value) rows)[k]? = some v ↔ _
    rw [ih rest, getElem?_insert_eq]
    by_cases later : k ∈ rows.map Prod.fst
    · obtain ⟨⟨_, w⟩, there, named⟩ := List.mem_map.mp later
      have named : _ = k := named
      subst named
      constructor
      · rintro (inside | ⟨absent, _⟩)
        · exact .inl (List.mem_cons_of_mem _ inside)
        · exact absurd later absent
      · rintro (inside | ⟨absent, _⟩)
        · rcases List.mem_cons.mp inside with same | inside
          · rw [Prod.mk.injEq] at same
            have equal : value = w := first _ there same.1.symm
            rw [same.2, equal]
            exact .inl there
          · exact .inl inside
        · exact absurd (List.mem_cons_of_mem _ later) absent
    · by_cases same : key = k
      · subst same
        rw [if_pos rfl]
        constructor
        · rintro (inside | ⟨_, equal⟩)
          · exact absurd (List.mem_map_of_mem inside) later
          · cases equal
            exact .inl (List.mem_cons_self ..)
        · rintro (inside | ⟨absent, _⟩)
          · rcases List.mem_cons.mp inside with equal | inside
            · cases equal
              exact .inr ⟨later, rfl⟩
            · exact absurd (List.mem_map_of_mem inside) later
          · exact absurd (List.mem_cons_self ..) absent
      · rw [if_neg same]
        simp only [List.map_cons, List.mem_cons, Prod.mk.injEq, not_or]
        simp [Ne.symm same, later]

/-- The order of rows that agree does not matter. -/
theorem insertAll_perm (h : Functional rows) (perm : rows.Perm rows') :
    insertAll m rows = insertAll m rows' := by
  apply ExtTreeMap.ext_getElem?
  intro key
  apply Option.ext
  intro value
  show (insertAll m rows)[key]? = some value ↔ (insertAll m rows')[key]? = some value
  rw [getElem?_insertAll_iff h, getElem?_insertAll_iff (h.perm perm), perm.mem_iff,
    (perm.map Prod.fst).mem_iff]

theorem addAgreeing_eq_some [DecidableEq β] {row : κ × β} : addAgreeing m row = some m' ↔
    (∀ value, m[row.1]? = some value → value = row.2) ∧ m' = m.insert row.1 row.2 := by
  unfold addAgreeing
  cases known : m[row.1]? with
  | none => simp [eq_comm]
  | some value =>
    by_cases same : value = row.2
    · subst same
      simp [insert_same known, eq_comm]
    · simp [same]

/-- Rows fill a map where they agree with it and with one another. -/
theorem foldlM_addAgreeing [DecidableEq β] : rows.foldlM addAgreeing m = some m' ↔
    (∀ row ∈ rows, ∀ value, m[row.1]? = some value → value = row.2) ∧ Functional rows ∧
      m' = insertAll m rows := by
  classical
  induction rows generalizing m with
  | nil =>
    show some m = some m' ↔ _
    simp [Functional, insertAll, eq_comm]
  | cons row rows ih =>
    rw [List.foldlM_cons, functional_cons]
    constructor
    · intro filled
      obtain ⟨next, added, filled⟩ := Option.bind_eq_some_iff.mp filled
      rw [addAgreeing_eq_some] at added
      obtain ⟨here, shape⟩ := added
      subst shape
      obtain ⟨others, rest, last⟩ := ih.mp filled
      have agrees : ∀ other ∈ rows, row.1 = other.1 → row.2 = other.2 := by
        intro other there same
        apply others other there
        rw [getElem?_insert_eq, if_pos same]
      refine ⟨?_, ⟨agrees, rest⟩, last⟩
      intro other there value known
      rcases List.mem_cons.mp there with rfl | there
      · exact here value known
      · by_cases same : row.1 = other.1
        · rw [← agrees other there same]
          exact here value (same ▸ known)
        · apply others other there
          rw [getElem?_insert_eq, if_neg same, known]
    · rintro ⟨known, ⟨agrees, rest⟩, last⟩
      apply Option.bind_eq_some_iff.mpr
      refine ⟨m.insert row.1 row.2, ?_, ?_⟩
      · exact addAgreeing_eq_some.mpr ⟨known row (List.mem_cons_self ..), rfl⟩
      · apply ih.mpr
        refine ⟨?_, rest, last⟩
        intro other there value found
        rw [getElem?_insert_eq] at found
        split at found
        · next same =>
          cases found
          exact agrees other there same
        · exact known other (List.mem_cons_of_mem _ there) value found

/-- Rows fill a map where their keys are new and different. -/
theorem foldlM_addNew : rows.foldlM addNew m = some m' ↔
    (∀ row ∈ rows, row.1 ∉ m) ∧ (rows.map Prod.fst).Nodup ∧ m' = insertAll m rows := by
  induction rows generalizing m with
  | nil =>
    show some m = some m' ↔ _
    simp [insertAll, eq_comm]
  | cons row rows ih =>
    rw [List.foldlM_cons, List.map_cons, List.nodup_cons]
    have step : ∀ next, addNew m row = some next ↔ row.1 ∉ m ∧ next = m.insert row.1 row.2 := by
      intro next
      unfold addNew
      rw [← ExtTreeMap.contains_iff_mem]
      by_cases there : m.contains row.1 = true
      · simp [there]
      · simp [there, eq_comm]
    constructor
    · intro filled
      obtain ⟨next, added, filled⟩ := Option.bind_eq_some_iff.mp filled
      obtain ⟨here, shape⟩ := (step next).mp added
      subst shape
      obtain ⟨others, nodup, last⟩ := ih.mp filled
      have fresh : ∀ other ∈ rows, row.1 ≠ other.1 ∧ other.1 ∉ m := by
        intro other there
        have absent := others other there
        rw [ExtTreeMap.mem_insert, Std.LawfulEqCmp.compare_eq_iff_eq, not_or] at absent
        exact absent
      refine ⟨?_, ⟨?_, nodup⟩, last⟩
      · intro other there
        rcases List.mem_cons.mp there with rfl | there
        · exact here
        · exact (fresh other there).2
      · intro there
        obtain ⟨other, inside, same⟩ := List.mem_map.mp there
        exact (fresh other inside).1 same.symm
    · rintro ⟨absent, ⟨different, nodup⟩, last⟩
      apply Option.bind_eq_some_iff.mpr
      refine ⟨m.insert row.1 row.2, (step _).mpr ⟨absent row (List.mem_cons_self ..), rfl⟩, ?_⟩
      apply ih.mpr
      refine ⟨?_, nodup, last⟩
      intro other there
      rw [ExtTreeMap.mem_insert, Std.LawfulEqCmp.compare_eq_iff_eq, not_or]
      constructor
      · intro same
        exact different (List.mem_map.mpr ⟨other, there, same.symm⟩)
      · exact absent other (List.mem_cons_of_mem _ there)

end Foundation
