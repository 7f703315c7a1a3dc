import Flightdeck.SaveState.RoundTrip

/-!
# Content digests

A content digest ignores the generation and the times of a state.  Every state that `encode`
accepts has one, and so has each of its containers on its own.
-/

namespace Flightdeck.SaveState

open Foundation

def Row.timeless (row : Row) : Row := { row with modified := 0 }

theorem rowsOf_canonical (s : State) : rowsOf (canonical s) = (rowsOf s).map Row.timeless := by
  simp only [rowsOf, canonical, Std.ExtTreeMap.toList_map, List.map_map]
  rfl

theorem rowLayout_timeless_length (row : Row) :
    (rowLayout row.timeless).length = (rowLayout row).length := by
  simp only [rowLayout, Row.timeless, List.length_append, leBytes_length]

theorem bodyLayout_timeless_length (g g' : UInt64) (rows : List Row) :
    (bodyLayout g (rows.map Row.timeless)).length = (bodyLayout g' rows).length := by
  have hrows : ((rows.map Row.timeless).flatMap rowLayout).length =
      (rows.flatMap rowLayout).length := by
    simp only [List.length_flatMap, List.map_map]
    exact congrArg List.sum (List.map_congr_left fun row _ => rowLayout_timeless_length row)
  simp only [bodyLayout, headerLayout, List.length_append, leBytes_length, hrows]

theorem RowOk.timeless {row : Row} (h : RowOk row) : RowOk row.timeless :=
  ⟨h.key, h.keyName, h.displayName, Nat.zero_le _, h.blobNames, h.nodup⟩

theorem RowsOk.timeless {rows : List Row} (h : RowsOk rows) : RowsOk (rows.map Row.timeless) where
  each := by
    intro row hrow
    obtain ⟨row, hmem, rfl⟩ := List.mem_map.mp hrow
    exact (h.each row hmem).timeless
  nodup := by
    rw [List.map_map]
    exact h.nodup
  count := by
    rw [List.length_map]
    exact h.count
  blobs := by
    unfold totalBlobs
    rw [List.map_map]
    exact h.blobs
  used := by
    unfold totalBytes
    rw [List.map_map]
    exact h.used

/-- What `encode` accepts. -/
def Encodable (s : State) : Prop :=
  RowsOk (rowsOf s) ∧ (bodyLayout s.generation (rowsOf s)).length ≤ QUOTA + METADATA_LIMIT

theorem encodable_iff [Sha256] {s : State} : (∃ data, encode s = .ok data) ↔ Encodable s := by
  constructor
  · rintro ⟨data, h⟩
    obtain ⟨hrows, hlength, -⟩ := encode_eq_ok.mp h
    exact ⟨hrows, hlength⟩
  · rintro ⟨hrows, hlength⟩
    exact ⟨_, encode_eq_ok.mpr ⟨hrows, hlength, rfl⟩⟩

theorem Encodable.generation {s : State} (h : Encodable s) (generation : UInt64) :
    Encodable { s with generation } := by
  obtain ⟨hrows, hlength⟩ := h
  refine ⟨hrows, ?_⟩
  simp only [bodyLayout, headerLayout, List.length_append, leBytes_length] at hlength ⊢
  exact hlength

theorem encodable_of_decode [Sha256] {data : Bytes} {s : State} (h : decode data = .ok s) :
    Encodable s := by
  obtain ⟨data', hdata', -⟩ := encode_decode h
  exact encodable_iff.mp ⟨data', hdata'⟩

theorem encodable_empty : Encodable {} := by
  have hrows : rowsOf {} = [] := rfl
  unfold Encodable
  rw [hrows]
  exact ⟨⟨nofun, List.nodup_nil, Nat.zero_le _, Nat.zero_le _, Nat.zero_le _⟩, by decide⟩

theorem Encodable.canonical {s : State} (h : Encodable s) : Encodable (canonical s) := by
  unfold Encodable
  rw [rowsOf_canonical, bodyLayout_timeless_length _ s.generation]
  exact ⟨h.1.timeless, h.2⟩

theorem contentDigest_of_encodable [Sha256] {s : State} (h : Encodable s) :
    ∃ digest, contentDigest s = .ok digest := by
  obtain ⟨data, hdata⟩ := encodable_iff.mpr h.canonical
  exact ⟨sha256 data, bind_eq_ok.mpr ⟨data, hdata, rfl⟩⟩

/-! ## Parts of a state -/

theorem sum_map_le_of_sublist {α : Type} (f : α → Nat) {xs ys : List α} (h : xs.Sublist ys) :
    (xs.map f).sum ≤ (ys.map f).sum := by
  induction h with
  | slnil => exact Nat.le_refl _
  | cons y _ ih =>
    rw [List.map_cons, List.sum_cons]
    omega
  | cons_cons y _ ih =>
    simp only [List.map_cons, List.sum_cons]
    omega

theorem RowsOk.sublist {xs ys : List Row} (h : RowsOk ys) (hsub : xs.Sublist ys) : RowsOk xs where
  each row hrow := h.each row (hsub.subset hrow)
  nodup := h.nodup.sublist (hsub.map _)
  count := hsub.length_le.trans h.count
  blobs := (sum_map_le_of_sublist _ hsub).trans h.blobs
  used := (sum_map_le_of_sublist _ hsub).trans h.used

theorem Encodable.sublist {s t : State} (h : Encodable s)
    (hsub : (rowsOf t).Sublist (rowsOf s)) : Encodable t := by
  refine ⟨h.1.sublist hsub, le_trans ?_ h.2⟩
  have hrows : ((rowsOf t).flatMap rowLayout).length ≤ ((rowsOf s).flatMap rowLayout).length := by
    simp only [List.length_flatMap]
    exact sum_map_le_of_sublist _ hsub
  simp only [bodyLayout, headerLayout, List.length_append, leBytes_length]
  omega

theorem rowsOf_single (key : String) (entry : Container) :
    rowsOf ⟨0, (∅ : TextMap Container).insert key entry⟩ = [rowOf (key, entry)] := by
  have hlist : (insertAll (∅ : TextMap Container) [(key, entry)]).toList = [(key, entry)] :=
    toList_insertAll_of_sorted (List.pairwise_singleton _ _)
  change (insertAll (∅ : TextMap Container) [(key, entry)]).toList.map rowOf = _
  rw [hlist]
  rfl

theorem Encodable.single {s : State} (h : Encodable s) {key : String} {entry : Container}
    (hentry : s.containers[key]? = some entry) :
    Encodable ⟨0, (∅ : TextMap Container).insert key entry⟩ := by
  apply h.sublist
  rw [rowsOf_single, List.singleton_sublist, rowsOf, List.mem_map]
  exact ⟨(key, entry), Std.ExtTreeMap.mem_toList_iff_getElem?_eq_some.mpr hentry, rfl⟩

/-! ## States given by a list -/

/-- A name of letters, digits and underscores. -/
theorem name_of_plain {value : String} (hnonempty : utf8 value ≠ [])
    (hlength : (utf8 value).length ≤ 256)
    (hplain : ∀ b ∈ utf8 value, (isAsciiAlphanumeric b || b == 95) = true) (container : Bool) :
    name value container = .ok () := by
  have hdot : (46 : UInt8) ∉ utf8 value := fun h => absurd (hplain _ h) (by decide)
  have hslash : (47 : UInt8) ∉ utf8 value := fun h => absurd (hplain _ h) (by decide)
  have hsplit : (utf8 value).splitOn 47 = [utf8 value] := by
    apply List.splitOn_eq_singleton_of_beq_eq_false
    exact fun b hb => beq_eq_false_iff_ne.mpr fun heq => hslash (heq ▸ hb)
  have hinfix : ¬ [46, 46] <:+: utf8 value := fun h => hdot (h.subset List.mem_cons_self)
  have hlast : (utf8 value).getLast? ≠ some 46 := fun h => hdot (List.mem_of_getLast? h)
  unfold name
  simp only [hsplit, nameParts, bind_eq_ok, require_eq_ok, Bool.and_eq_true, Bool.not_eq_true',
    List.isEmpty_eq_false_iff, decide_eq_true_eq, decide_eq_false_iff_not, bne_iff_ne,
    List.all_eq_true]
  refine ⟨(), ⟨⟨⟨hnonempty, hlength⟩, hinfix⟩, hlast⟩, (), hnonempty, (), by simp, (), ?_, trivial⟩
  intro b hb
  rw [hplain b hb]
  rfl
theorem RowsOk.perm {xs ys : List Row} (h : RowsOk xs) (hperm : xs.Perm ys) : RowsOk ys where
  each row hrow := h.each row (hperm.mem_iff.mpr hrow)
  nodup := (hperm.map _).nodup_iff.mp h.nodup
  count := hperm.length_eq ▸ h.count
  blobs := by
    have heq : totalBlobs xs = totalBlobs ys := (hperm.map _).sum_eq
    exact heq ▸ h.blobs
  used := by
    have heq : totalBytes xs = totalBytes ys := (hperm.map _).sum_eq
    exact heq ▸ h.used

theorem encodable_insertAll {generation : UInt64} {rows : List (String × Container)}
    (hrows : RowsOk (rows.map rowOf))
    (hlength : (bodyLayout generation (rows.map rowOf)).length ≤ QUOTA + METADATA_LIMIT) :
    Encodable ⟨generation, insertAll ∅ rows⟩ := by
  have hnodup : (rows.map Prod.fst).Nodup := by
    have h := hrows.nodup
    rw [List.map_map] at h
    exact h
  have hperm : (rows.map rowOf).Perm (rowsOf ⟨generation, insertAll ∅ rows⟩) :=
    ((toList_insertAll_perm hnodup).map rowOf).symm
  refine ⟨hrows.perm hperm, ?_⟩
  have hsum : ((rowsOf ⟨generation, insertAll ∅ rows⟩).flatMap rowLayout).length =
      ((rows.map rowOf).flatMap rowLayout).length := by
    simp only [List.length_flatMap]
    exact (hperm.map _).sum_eq.symm
  simp only [bodyLayout, headerLayout, List.length_append, leBytes_length, hsum] at hlength ⊢
  exact hlength

end Flightdeck.SaveState
