import Flightdeck.SaveState.Budgets
import Flightdeck.SaveState.Encode

/-!
# Round trips of the save file

`decode` inverts `encode`, and `encode` brings every accepted file into its canonical order.
-/

namespace Flightdeck.SaveState

open Foundation

/-! ## The layout is self-delimiting -/

theorem leBytes_append_inj {width m n : Nat} {xs ys : Bytes} (hm : m < 256 ^ width)
    (hn : n < 256 ^ width) (h : leBytes width m ++ xs = leBytes width n ++ ys) :
    m = n ∧ xs = ys := by
  obtain ⟨hle, hrest⟩ := List.append_inj h (by simp only [leBytes_length])
  exact ⟨leBytes_inj hm hn hle, hrest⟩

theorem textLayout_append_inj {s t : String} {xs ys : Bytes} (hs : (utf8 s).length < 256 ^ 4)
    (ht : (utf8 t).length < 256 ^ 4) (h : textLayout s ++ xs = textLayout t ++ ys) :
    s = t ∧ xs = ys := by
  simp only [textLayout, List.append_assoc] at h
  obtain ⟨hlen, h⟩ := leBytes_append_inj hs ht h
  obtain ⟨htext, hrest⟩ := List.append_inj h hlen
  exact ⟨utf8_inj.mp htext, hrest⟩

theorem TextOk.length_lt {limit : Nat} {s : String} (h : TextOk limit s)
    (hlimit : limit < 256 ^ 4) : (utf8 s).length < 256 ^ 4 :=
  h.1.trans_lt hlimit

/-- The bounds a blob of an admissible file satisfies on its own. -/
structure BlobBounded (blob : String × Bytes) : Prop where
  name : BlobNameOk blob.1
  size : blob.2.length ≤ QUOTA

theorem blobLayout_append_inj {a b : String × Bytes} {xs ys : Bytes} (ha : BlobBounded a)
    (hb : BlobBounded b) (h : blobLayout a ++ xs = blobLayout b ++ ys) : a = b ∧ xs = ys := by
  have hquota : QUOTA < 256 ^ 4 := by decide
  simp only [blobLayout, List.append_assoc] at h
  obtain ⟨hkey, h⟩ := textLayout_append_inj (ha.name.1.length_lt (by decide))
    (hb.name.1.length_lt (by decide)) h
  obtain ⟨hlen, h⟩ := leBytes_append_inj (ha.size.trans_lt hquota) (hb.size.trans_lt hquota) h
  obtain ⟨hbytes, hrest⟩ := List.append_inj h hlen
  exact ⟨Prod.ext hkey hbytes, hrest⟩

/-- Two lists of the same length whose elements are laid out self-delimitingly. -/
theorem flatMap_append_inj {ρ τ : Type} {layout : ρ → List τ} {ok : ρ → Prop}
    (hinj : ∀ a b xs ys, ok a → ok b → layout a ++ xs = layout b ++ ys → a = b ∧ xs = ys)
    {as bs : List ρ} {xs ys : List τ} (has : ∀ a ∈ as, ok a) (hbs : ∀ b ∈ bs, ok b)
    (hlen : as.length = bs.length) (h : as.flatMap layout ++ xs = bs.flatMap layout ++ ys) :
    as = bs ∧ xs = ys := by
  induction as generalizing bs with
  | nil =>
    cases List.eq_nil_of_length_eq_zero hlen.symm
    exact ⟨rfl, h⟩
  | cons a as ih =>
    cases bs with
    | nil => cases hlen
    | cons b bs =>
      simp only [List.flatMap_cons, List.append_assoc] at h
      rw [List.forall_mem_cons] at has hbs
      obtain ⟨rfl, htail⟩ := hinj a b _ _ has.1 hbs.1 h
      obtain ⟨rfl, hrest⟩ := ih has.2 hbs.2 (Nat.succ.inj hlen) htail
      exact ⟨rfl, hrest⟩

/-- The bounds a row of an admissible file satisfies on its own. -/
structure RowBounded (row : Row) : Prop where
  fields : RowOk row
  count : row.blobs.length ≤ BLOB_LIMIT
  blobs : ∀ blob ∈ row.blobs, BlobBounded blob

theorem RowsOk.bounded {rows : List Row} (h : RowsOk rows) : ∀ row ∈ rows, RowBounded row := by
  intro row hrow
  have hcount : row.blobs.length ≤ totalBlobs rows :=
    List.le_sum_of_mem (List.mem_map_of_mem (f := fun row : Row => row.blobs.length) hrow)
  have hbytes : blobBytes row.blobs ≤ totalBytes rows :=
    List.le_sum_of_mem (List.mem_map_of_mem (f := fun row : Row => blobBytes row.blobs) hrow)
  refine ⟨h.each row hrow, hcount.trans h.blobs, fun blob hblob => ?_⟩
  have hsize : blob.2.length ≤ blobBytes row.blobs :=
    List.le_sum_of_mem (List.mem_map_of_mem (f := fun blob : String × Bytes => blob.2.length) hblob)
  exact ⟨(h.each row hrow).blobNames blob hblob, hsize.trans (hbytes.trans h.used)⟩

theorem rowLayout_append_inj {a b : Row} {xs ys : Bytes} (ha : RowBounded a) (hb : RowBounded b)
    (h : rowLayout a ++ xs = rowLayout b ++ ys) : a = b ∧ xs = ys := by
  have hlimit : BLOB_LIMIT < 256 ^ 4 := by decide
  simp only [rowLayout, List.append_assoc] at h
  obtain ⟨hkey, h⟩ := textLayout_append_inj (ha.fields.key.length_lt (by decide))
    (hb.fields.key.length_lt (by decide)) h
  obtain ⟨hdisplay, h⟩ := textLayout_append_inj (ha.fields.displayName.length_lt (by decide))
    (hb.fields.displayName.length_lt (by decide)) h
  obtain ⟨hmodified, h⟩ := leBytes_append_inj a.modified.toNat_lt b.modified.toNat_lt h
  obtain ⟨hcount, h⟩ := leBytes_append_inj (ha.count.trans_lt hlimit) (hb.count.trans_lt hlimit) h
  obtain ⟨hblobs, hrest⟩ := flatMap_append_inj (fun _ _ _ _ => blobLayout_append_inj) ha.blobs
    hb.blobs hcount h
  cases a
  cases b
  cases hkey
  cases hdisplay
  cases hblobs
  cases UInt64.toNat_inj.mp hmodified
  exact ⟨rfl, hrest⟩

/-- A file lists its rows in one way only. -/
theorem frame_inj [Sha256] {generation : UInt64} {as bs : List Row} (has : RowsOk as)
    (hbs : RowsOk bs) (h : frame generation as = frame generation bs) : as = bs := by
  have hlimit : CONTAINER_LIMIT < 256 ^ 4 := by decide
  have hlen := congrArg List.length h
  rw [frame_length, frame_length] at hlen
  obtain ⟨hbody, -⟩ := List.append_inj h (by omega)
  simp only [bodyLayout, headerLayout, List.append_assoc, List.append_cancel_left_eq] at hbody
  obtain ⟨hcount, hrows⟩ := leBytes_append_inj (has.count.trans_lt hlimit)
    (hbs.count.trans_lt hlimit) hbody
  have hflat : as.flatMap rowLayout ++ [] = bs.flatMap rowLayout ++ [] := by rw [hrows]
  exact (flatMap_append_inj (fun _ _ _ _ => rowLayout_append_inj) has.bounded hbs.bounded hcount
    hflat).1

/-! ## Ascending files -/

/-- The names of the containers, and inside each container those of the blobs, strictly ascend. -/
structure Ascending (rows : List Row) : Prop where
  containers : rows.Pairwise fun a b => byteOrder a.key b.key = .lt
  blobs : ∀ row ∈ rows, row.blobs.Pairwise fun a b => byteOrder a.1 b.1 = .lt

theorem rowsOf_ascending (s : State) : Ascending (rowsOf s) where
  containers := List.pairwise_map.mpr Std.ExtTreeMap.ordered_keys_toList
  blobs := by
    intro row hrow
    obtain ⟨entry, -, rfl⟩ := List.mem_map.mp hrow
    exact Std.ExtTreeMap.ordered_keys_toList

/-- The row with its blobs in ascending order. -/
def sortRow (row : Row) : Row := rowOf row.entry

theorem sortRow_blobs_perm {row : Row} (h : RowOk row) : (sortRow row).blobs.Perm row.blobs :=
  toList_insertAll_perm h.nodup

theorem sortRow_eq_self {row : Row}
    (h : row.blobs.Pairwise fun a b => byteOrder a.1 b.1 = .lt) : sortRow row = row := by
  simp only [sortRow, rowOf, Row.entry, Row.container, toList_insertAll_of_sorted h]

theorem RowOk.sort {row : Row} (h : RowOk row) : RowOk (sortRow row) where
  key := h.key
  keyName := h.keyName
  displayName := h.displayName
  modified := h.modified
  blobNames := fun blob hblob => h.blobNames blob ((sortRow_blobs_perm h).mem_iff.mp hblob)
  nodup := ((sortRow_blobs_perm h).map _).nodup_iff.mpr h.nodup

section

variable {s : State} {rows : List Row}

/-- The rows of a state in the order of a file it is read from. -/
theorem rowsOf_perm (hok : RowsOk rows) (hs : s.containers = insertAll ∅ (rows.map Row.entry)) :
    (rowsOf s).Perm (rows.map sortRow) := by
  have hnodup : ((rows.map Row.entry).map Prod.fst).Nodup := by
    rw [List.map_map]
    exact hok.nodup
  have hperm : s.containers.toList.Perm (rows.map Row.entry) := by
    rw [hs]
    exact toList_insertAll_perm hnodup
  have hrows := hperm.map rowOf
  rw [List.map_map] at hrows
  exact hrows

theorem rowsOf_eq_of_ascending (hs : s.containers = insertAll ∅ (rows.map Row.entry))
    (h : Ascending rows) : rowsOf s = rows := by
  have hsorted : (rows.map Row.entry).Pairwise fun a b => byteOrder a.1 b.1 = .lt :=
    List.pairwise_map.mpr h.containers
  rw [rowsOf, hs, toList_insertAll_of_sorted hsorted, List.map_map]
  exact (List.map_congr_left fun row hrow => sortRow_eq_self (h.blobs row hrow)).trans
    (List.map_id _)

theorem rowLayout_sort_length {row : Row} (h : RowOk row) :
    (rowLayout (sortRow row)).length = (rowLayout row).length := by
  have hperm := sortRow_blobs_perm h
  have hblobs : ((sortRow row).blobs.flatMap blobLayout).length =
      (row.blobs.flatMap blobLayout).length := by
    rw [List.length_flatMap, List.length_flatMap]
    exact (hperm.map _).sum_eq
  simp only [rowLayout, List.length_append, leBytes_length, hblobs]
  rfl

/-- A measure that sorting the blobs does not change has the same sum over the state. -/
theorem sum_rowsOf {f : Row → Nat} (hf : ∀ row, RowOk row → f (sortRow row) = f row)
    (hok : RowsOk rows) (hs : s.containers = insertAll ∅ (rows.map Row.entry)) :
    ((rowsOf s).map f).sum = (rows.map f).sum := by
  rw [((rowsOf_perm hok hs).map f).sum_eq, List.map_map]
  exact congrArg List.sum (List.map_congr_left fun row hrow => hf row (hok.each row hrow))

theorem rowsOf_ok (hok : RowsOk rows) (hs : s.containers = insertAll ∅ (rows.map Row.entry)) :
    RowsOk (rowsOf s) where
  each := by
    intro row hrow
    obtain ⟨row, hmem, rfl⟩ := List.mem_map.mp ((rowsOf_perm hok hs).mem_iff.mp hrow)
    exact (hok.each row hmem).sort
  nodup := rowsOf_nodup s
  count := by
    rw [(rowsOf_perm hok hs).length_eq, List.length_map]
    exact hok.count
  blobs := by
    refine le_of_eq_of_le (sum_rowsOf (fun row hrow => ?_) hok hs) hok.blobs
    exact (sortRow_blobs_perm hrow).length_eq
  used := by
    refine le_of_eq_of_le (sum_rowsOf (fun row hrow => ?_) hok hs) hok.used
    exact ((sortRow_blobs_perm hrow).map _).sum_eq

theorem bodyLayout_rowsOf_length (hok : RowsOk rows)
    (hs : s.containers = insertAll ∅ (rows.map Row.entry)) (generation : UInt64) :
    (bodyLayout generation (rowsOf s)).length = (bodyLayout generation rows).length := by
  simp only [bodyLayout, headerLayout, List.length_append, leBytes_length, List.length_flatMap]
  rw [sum_rowsOf (fun row hrow => rowLayout_sort_length hrow) hok hs]

end

theorem decode_encode [Sha256] {s : State} {data : Bytes} (h : encode s = .ok data) :
    decode data = .ok s := by
  obtain ⟨hok, hlen, rfl⟩ := encode_eq_ok.mp h
  exact decode_eq_ok.mpr ⟨rowsOf s, hok, (rowsOf_entries s).symm, hlen, rfl⟩

/-- What is accepted can be written again, without changing its length. -/
theorem encode_decode [Sha256] {s : State} {data : Bytes} (h : decode data = .ok s) :
    ∃ data', encode s = .ok data' ∧ data'.length = data.length := by
  obtain ⟨rows, hok, hs, hlen, rfl⟩ := decode_eq_ok.mp h
  refine ⟨frame s.generation (rowsOf s), encode_eq_ok.mpr ⟨rowsOf_ok hok hs, ?_, rfl⟩, ?_⟩
  · rw [bodyLayout_rowsOf_length hok hs]
    exact hlen
  · rw [frame_length, frame_length, bodyLayout_rowsOf_length hok hs]

/-- The canonical file is the given one exactly if that one ascends. -/
theorem encode_eq_iff_ascending [Sha256] {s : State} {rows : List Row} {data : Bytes}
    (hok : RowsOk rows) (hs : s.containers = insertAll ∅ (rows.map Row.entry))
    (h : encode s = .ok data) : data = frame s.generation rows ↔ Ascending rows := by
  obtain ⟨hok', -, rfl⟩ := encode_eq_ok.mp h
  constructor
  · intro heq
    exact frame_inj hok' hok heq ▸ rowsOf_ascending s
  · intro hasc
    rw [rowsOf_eq_of_ascending hs hasc]

/-! ## The round trip -/

/-- `encode` and `decode` are inverse up to the order of the file, and neither leaves its bounds. -/
theorem save_state_roundtrip [Sha256] :
    (∀ (s : State) (b : Bytes), encode s = .ok b → decode b = .ok s) ∧
    (∀ (b : Bytes) (s : State), decode b = .ok s →
      (∃! rows, RowsOk rows ∧ b = frame s.generation rows) ∧
      ∃ b', encode s = .ok b' ∧ b'.length = b.length ∧ decode b' = .ok s ∧
        ∀ rows, RowsOk rows → b = frame s.generation rows → (b' = b ↔ Ascending rows)) ∧
    (∀ b : Bytes, decode b ≠ .error .arithmetic) ∧
    (∀ s : State, encode s ≠ .error .arithmetic) ∧
    (∀ (size : Nat) (r r' : Cursor UInt8) (bytes : Bytes), take size r = .ok (bytes, r') →
      r.position + size ≤ r.data.length ∧ bytes = (r.data.drop r.position).take size ∧
      r'.data = r.data ∧ r'.position = r.position + size) := by
  refine ⟨fun s b h => decode_encode h, fun b s h => ⟨?_, ?_⟩, fun b h => ?_, fun s h => ?_,
    fun size r r' bytes h => ?_⟩
  · obtain ⟨rows, hok, -, -, hframe⟩ := decode_eq_ok.mp h
    refine ⟨rows, ⟨hok, hframe⟩, fun rows' h' => ?_⟩
    exact frame_inj h'.1 hok (h'.2 ▸ hframe)
  · obtain ⟨b', hencode, hlen⟩ := encode_decode h
    refine ⟨b', hencode, hlen, decode_encode hencode, fun rows hok hframe => ?_⟩
    obtain ⟨rows', hok', hs, -, hframe'⟩ := decode_eq_ok.mp h
    have hrows : rows' = rows := frame_inj hok' hok (hframe' ▸ hframe)
    rw [hrows] at hs
    rw [hframe]
    exact encode_eq_iff_ascending hok hs hencode
  · have hout := decode_outcome b
    rw [h] at hout
    exact hout.noUnderflow rfl
  · have hout := encode_outcome s
    rw [h] at hout
    exact hout.noUnderflow rfl
  · unfold take at h
    split at h
    · rename_i hin
      cases h
      exact ⟨hin, rfl, rfl, rfl⟩
    · cases h

end Flightdeck.SaveState
