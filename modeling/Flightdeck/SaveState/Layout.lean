import Flightdeck.SaveState.Format

/-!
# The language of the save file

A file lists its containers as rows, each with its blobs.  `frame` writes a list of rows down;
`decode` accepts exactly the frames of admissible rows, in any order of their names, and `encode`
writes the frame of the ascending rows of a state.
-/

namespace Flightdeck.SaveState

open Foundation

/-- One container as the file lists it: its blobs stand in file order. -/
structure Row where
  key : String
  displayName : String
  modified : UInt64
  blobs : List (String × Bytes)

def Row.container (row : Row) : Container where
  displayName := row.displayName
  modified := row.modified
  blobs := insertAll ∅ row.blobs

def Row.entry (row : Row) : String × Container := (row.key, row.container)

/-- The bytes of all blobs of a row. -/
def blobBytes (blobs : List (String × Bytes)) : Nat := (blobs.map fun blob => blob.2.length).sum

def totalBlobs (rows : List Row) : Nat := (rows.map fun row => row.blobs.length).sum

def totalBytes (rows : List Row) : Nat := (rows.map fun row => blobBytes row.blobs).sum

def textLayout (s : String) : Bytes := leBytes 4 (utf8 s).length ++ utf8 s

def blobLayout (blob : String × Bytes) : Bytes :=
  textLayout blob.1 ++ leBytes 4 blob.2.length ++ blob.2

def rowLayout (row : Row) : Bytes :=
  textLayout row.key ++ textLayout row.displayName ++ leBytes 8 row.modified.toNat ++
    leBytes 4 row.blobs.length ++ row.blobs.flatMap blobLayout

def headerLayout (generation : UInt64) (count : Nat) : Bytes :=
  MAGIC ++ leBytes 4 1 ++ leBytes 8 generation.toNat ++ leBytes 4 count

def bodyLayout (generation : UInt64) (rows : List Row) : Bytes :=
  headerLayout generation rows.length ++ rows.flatMap rowLayout

def frame [Sha256] (generation : UInt64) (rows : List Row) : Bytes :=
  bodyLayout generation rows ++ Sha256.digest (bodyLayout generation rows)

/-! ## What the fields must satisfy -/

def TextOk (limit : Nat) (s : String) : Prop := (utf8 s).length ≤ limit ∧ 0 ∉ utf8 s

def BlobNameOk (key : String) : Prop := TextOk 256 key ∧ name key false = .ok ()

structure RowOk (row : Row) : Prop where
  key : TextOk 256 row.key
  keyName : name row.key true = .ok ()
  displayName : TextOk 4096 row.displayName
  modified : row.modified.toNat ≤ I64_MAX
  blobNames : ∀ blob ∈ row.blobs, BlobNameOk blob.1
  nodup : (row.blobs.map Prod.fst).Nodup

structure RowsOk (rows : List Row) : Prop where
  each : ∀ row ∈ rows, RowOk row
  nodup : (rows.map Row.key).Nodup
  count : rows.length ≤ CONTAINER_LIMIT
  blobs : totalBlobs rows ≤ BLOB_LIMIT
  used : totalBytes rows ≤ QUOTA

/-! ## Fields -/

theorem accepts_take (size : Nat) :
    Accepts (take size) (fun bytes bs => bytes.length = size ∧ bytes = bs) := by
  intro c a c'
  unfold take
  constructor
  · intro h
    split at h
    · rename_i hin
      cases h
      have hlen : ((c.data.drop c.position).take size).length = size := by
        rw [List.length_take, List.length_drop]
        omega
      refine ⟨_, ⟨hlen, rfl⟩, rfl, ?_⟩
      change c.data.drop c.position = _ ++ c.data.drop (c.position + size)
      rw [← List.drop_drop, List.take_append_drop]
    · cases h
  · rintro ⟨bs, ⟨hlen, rfl⟩, hread⟩
    have hpos := hread.position
    have hin := c'.inside
    rw [hread.1] at hin
    rw [dif_pos (by omega)]
    have hbytes : (c.data.drop c.position).take size = a := by
      have hrest := hread.2
      unfold Cursor.rest at hrest
      rw [hrest, ← hlen, List.take_left]
    congr 2
    ext1
    · exact hread.1.symm
    · rw [hpos, hlen]

theorem accepts_readU32 :
    Accepts readU32 (fun n bs => bs = leBytes 4 n.toNat) := by
  refine ((accepts_take 4).bind fun bytes => Accepts.pure _).congr fun n bs => ?_
  constructor
  · rintro ⟨bytes, _, _, ⟨hlen, rfl⟩, rfl, ⟨rfl, rfl⟩⟩
    have hlt := leNat_lt bytes
    rw [hlen] at hlt
    rw [UInt32.toNat_ofNat_of_lt' (by simpa [UInt32.size] using hlt), ← hlen, leBytes_leNat,
      List.append_nil]
  · rintro rfl
    refine ⟨_, _, [], ⟨leBytes_length _ _, rfl⟩, (List.append_nil _).symm, ?_, rfl⟩
    rw [leNat_leBytes (by have := n.toNat_lt; omega), UInt32.ofNat_toNat]

theorem accepts_readU64 :
    Accepts readU64 (fun n bs => bs = leBytes 8 n.toNat) := by
  refine ((accepts_take 8).bind fun bytes => Accepts.pure _).congr fun n bs => ?_
  constructor
  · rintro ⟨bytes, _, _, ⟨hlen, rfl⟩, rfl, ⟨rfl, rfl⟩⟩
    have hlt := leNat_lt bytes
    rw [hlen] at hlt
    rw [UInt64.toNat_ofNat_of_lt' (by simpa [UInt64.size] using hlt), ← hlen, leBytes_leNat,
      List.append_nil]
  · rintro rfl
    refine ⟨_, _, [], ⟨leBytes_length _ _, rfl⟩, (List.append_nil _).symm, ?_, rfl⟩
    rw [leNat_leBytes (by have := n.toNat_lt; omega), UInt64.ofNat_toNat]

theorem fromUtf8_eq_ok {bytes : Bytes} {s : String} :
    fromUtf8 bytes = .ok s ↔ bytes = utf8 s := by
  have hbytes : (⟨bytes.toArray⟩ : ByteArray) = s.toByteArray ↔ bytes = utf8 s := by
    constructor
    · intro h
      simp [utf8, ← h]
    · rintro rfl
      simp [utf8]
  rw [← hbytes]
  unfold fromUtf8 String.fromUTF8?
  by_cases hvalid : (⟨bytes.toArray⟩ : ByteArray).IsValidUTF8
  · simp only [dif_pos hvalid, Except.ok.injEq]
    exact ⟨fun h => h ▸ rfl, fun h => String.toByteArray_inj.mp h⟩
  · simp only [dif_neg hvalid, reduceCtorEq, false_iff]
    intro h
    exact hvalid (h ▸ s.isValidUTF8)

/-- A length field holds the length it was written for. -/
theorem exists_u32_eq {size limit : Nat} (hlimit : limit < 2 ^ 32) (hsize : size ≤ limit) :
    ∃ n : UInt32, n.toNat = size :=
  ⟨UInt32.ofNat size, UInt32.toNat_ofNat_of_lt' (by rw [UInt32.size]; omega)⟩

theorem accepts_readText {limit : Nat} (hlimit : limit < 2 ^ 32) :
    Accepts (readText limit) (fun s bs => TextOk limit s ∧ bs = textLayout s) := by
  refine (accepts_readU32.bind fun size => Accepts.lift fun _ => (accepts_take size.toNat).bind
    fun bytes => Accepts.lift fun s => Accepts.lift fun _ => Accepts.pure s).congr fun s bs => ?_
  simp only [require_eq_ok, fromUtf8_eq_ok, decide_eq_true_eq, Bool.not_eq_true',
    List.contains_eq_mem, decide_eq_false_iff_not]
  constructor
  · rintro ⟨size, _, _, rfl, rfl, -, hsize, _, _, _, ⟨hlen, rfl⟩, rfl, s', rfl, -, hzero,
      rfl, rfl⟩
    rw [← hlen] at hsize
    refine ⟨⟨hsize, hzero⟩, ?_⟩
    rw [List.append_nil, textLayout, hlen]
  · rintro ⟨⟨hsize, hzero⟩, rfl⟩
    obtain ⟨n, hn⟩ := exists_u32_eq hlimit hsize
    refine ⟨n, _, utf8 s, rfl, ?_, (), hn ▸ hsize, utf8 s, _, [], ⟨hn.symm, rfl⟩, ?_, s, rfl, (),
      hzero, rfl, rfl⟩
    · rw [textLayout, hn]
    · rw [List.append_nil]

end Flightdeck.SaveState
