import Flightdeck.SaveState.Layout

/-!
# What `encode` writes

`encode` visits the entries of the maps in the order of their names.  It succeeds exactly on states
whose ascending rows are admissible and short enough, and writes their frame.
-/

namespace Flightdeck.SaveState

open Foundation

/-- The containers and blobs of a state in the order of their names. -/
def rowOf (entry : String × Container) : Row where
  key := entry.1
  displayName := entry.2.displayName
  modified := entry.2.modified
  blobs := entry.2.blobs.toList

def rowsOf (s : State) : List Row := s.containers.toList.map rowOf

theorem rowOf_entry (entry : String × Container) : (rowOf entry).entry = entry := by
  simp only [Row.entry, rowOf, Row.container, insertAll_toList]

theorem rowsOf_entries (s : State) : insertAll ∅ ((rowsOf s).map Row.entry) = s.containers := by
  have hmap : (rowsOf s).map Row.entry = s.containers.toList := by
    rw [rowsOf, List.map_map]
    exact (List.map_congr_left fun entry _ => rowOf_entry entry).trans (List.map_id _)
  rw [hmap, insertAll_toList]

/-! ## Fields -/

theorem writeText_eq_ok {output output' : Bytes} {value : String} {maximum : Nat} :
    writeText output value maximum = .ok output' ↔
      TextOk maximum value ∧ output' = output ++ textLayout value := by
  simp only [writeText, bind_eq_ok, require_eq_ok, Bool.and_eq_true, decide_eq_true_eq,
    Bool.not_eq_true', List.contains_eq_mem, decide_eq_false_iff_not]
  constructor
  · rintro ⟨-, htext, h⟩
    cases h
    exact ⟨htext, by rw [textLayout, List.append_assoc]⟩
  · rintro ⟨htext, rfl⟩
    refine ⟨(), htext, ?_⟩
    rw [textLayout, ← List.append_assoc]
    rfl

/-! ## Blobs -/

def writtenBlob (e : Encoded) (blob : String × Bytes) : Encoded :=
  { e with output := e.output ++ blobLayout blob, used := e.used + blob.2.length }

theorem encodeBlob_eq_ok (e : Encoded) (blob : String × Bytes) (e' : Encoded) :
    encodeBlob e blob = .ok e' ↔
      (BlobNameOk blob.1 ∧ e.used + blob.2.length ≤ QUOTA) ∧ e' = writtenBlob e blob := by
  obtain ⟨key, bytes⟩ := blob
  simp only [encodeBlob, bind_eq_ok, require_eq_ok, checkedSub_eq_ok, writeText_eq_ok,
    decide_eq_true_eq]
  constructor
  · rintro ⟨⟨⟩, hname, _, ⟨hused, rfl⟩, -, hsize, _, ⟨htext, rfl⟩, h⟩
    cases h
    refine ⟨⟨⟨htext, hname⟩, by omega⟩, ?_⟩
    simp only [writtenBlob, blobLayout, List.append_assoc]
  · rintro ⟨⟨⟨htext, hname⟩, hused⟩, rfl⟩
    refine ⟨(), hname, _, ⟨by omega, rfl⟩, (), by omega, _, ⟨htext, rfl⟩, ?_⟩
    simp only [writtenBlob, blobLayout, List.append_assoc]
    rfl

theorem foldl_writtenBlob (e : Encoded) (blobs : List (String × Bytes)) :
    blobs.foldl writtenBlob e =
      { e with output := e.output ++ blobs.flatMap blobLayout, used := e.used + blobBytes blobs } := by
  induction blobs generalizing e with
  | nil => simp [blobBytes]
  | cons blob blobs ih =>
    rw [List.foldl_cons, ih]
    simp only [writtenBlob, blobBytes, List.flatMap_cons, List.map_cons, List.sum_cons,
      List.append_assoc, Nat.add_assoc]

theorem admits_writtenBlobs {e : Encoded} (he : e.used ≤ QUOTA) (blobs : List (String × Bytes)) :
    Admits (fun e blob => BlobNameOk blob.1 ∧ e.used + blob.2.length ≤ QUOTA) writtenBlob e blobs ↔
      (∀ blob ∈ blobs, BlobNameOk blob.1) ∧ e.used + blobBytes blobs ≤ QUOTA := by
  induction blobs generalizing e with
  | nil => simp [Admits, blobBytes, he]
  | cons blob blobs ih =>
    have hsum : e.used + blobBytes (blob :: blobs) =
        (writtenBlob e blob).used + blobBytes blobs := by
      simp only [writtenBlob, blobBytes, List.map_cons, List.sum_cons, Nat.add_assoc]
    simp only [Admits, List.forall_mem_cons, hsum]
    constructor
    · rintro ⟨⟨hname, hused⟩, hrest⟩
      obtain ⟨hnames, htotal⟩ := (ih hused).mp hrest
      exact ⟨⟨hname, hnames⟩, htotal⟩
    · rintro ⟨⟨hname, hnames⟩, htotal⟩
      have hused : e.used + blob.2.length ≤ QUOTA := (Nat.le_add_right _ _).trans htotal
      exact ⟨⟨hname, hused⟩, (ih hused).mpr ⟨hnames, htotal⟩⟩

/-! ## Containers -/

def writtenRow (e : Encoded) (row : Row) : Encoded where
  output := e.output ++ rowLayout row
  used := e.used + blobBytes row.blobs
  blobs := e.blobs + row.blobs.length

/-- What is in the output before the blobs of a row. -/
def rowHead (row : Row) : Bytes :=
  textLayout row.key ++ textLayout row.displayName ++ leBytes 8 row.modified.toNat ++
    leBytes 4 row.blobs.length

def blobsStart (e : Encoded) (row : Row) : Encoded where
  output := e.output ++ rowHead row
  used := e.used
  blobs := e.blobs + row.blobs.length

structure WriteStep (e : Encoded) (row : Row) : Prop where
  key : TextOk 256 row.key
  keyName : name row.key true = .ok ()
  displayName : TextOk 4096 row.displayName
  modified : row.modified.toNat ≤ I64_MAX
  count : e.blobs + row.blobs.length ≤ BLOB_LIMIT
  blobs : Admits (fun e blob => BlobNameOk blob.1 ∧ e.used + blob.2.length ≤ QUOTA) writtenBlob
    (blobsStart e row) row.blobs
  length : (writtenRow e row).output.length ≤ QUOTA + METADATA_LIMIT

theorem foldl_blobsStart (e : Encoded) (row : Row) :
    row.blobs.foldl writtenBlob (blobsStart e row) = writtenRow e row := by
  rw [foldl_writtenBlob]
  simp only [blobsStart, writtenRow, rowLayout, rowHead, List.append_assoc]

theorem encodeContainer_eq_ok (e : Encoded) (entry : String × Container) (e' : Encoded) :
    encodeContainer e entry = .ok e' ↔
      WriteStep e (rowOf entry) ∧ e' = writtenRow e (rowOf entry) := by
  have hstart : (⟨e.output ++ textLayout entry.1 ++ textLayout entry.2.displayName ++
      leBytes 8 entry.2.modified.toNat ++ leBytes 4 entry.2.blobs.size, e.used,
      e.blobs + entry.2.blobs.size⟩ : Encoded) = blobsStart e (rowOf entry) := by
    simp only [blobsStart, rowHead, rowOf, Std.ExtTreeMap.length_toList, List.append_assoc]
  obtain ⟨key, entry⟩ := entry
  simp only [encodeContainer, bind_eq_ok, require_eq_ok, checkedSub_eq_ok, writeText_eq_ok,
    decide_eq_true_eq, foldlM_eq_ok encodeBlob_eq_ok]
  constructor
  · rintro ⟨⟨⟩, hname, -, hmodified, _, ⟨hblobs, rfl⟩, -, hcount, _, ⟨hkey, rfl⟩, _,
      ⟨hdisplay, rfl⟩, _, ⟨hadmits, rfl⟩, -, hlen, h⟩
    rw [hstart] at hadmits hlen h
    rw [show entry.blobs.toList = (rowOf (key, entry)).blobs from rfl, foldl_blobsStart] at hlen h
    cases h
    refine ⟨⟨hkey, hname, hdisplay, hmodified, ?_, hadmits, hlen⟩, rfl⟩
    change e.blobs + entry.blobs.toList.length ≤ BLOB_LIMIT
    rw [Std.ExtTreeMap.length_toList]
    omega
  · rintro ⟨⟨hkey, hname, hdisplay, hmodified, hcount, hadmits, hlen⟩, rfl⟩
    change e.blobs + entry.blobs.toList.length ≤ BLOB_LIMIT at hcount
    rw [Std.ExtTreeMap.length_toList] at hcount
    refine ⟨(), hname, (), hmodified, _, ⟨by omega, rfl⟩, (), by omega, _, ⟨hkey, rfl⟩, _,
      ⟨hdisplay, rfl⟩, writtenRow e (rowOf (key, entry)), ⟨hstart ▸ hadmits, ?_⟩, (), hlen, rfl⟩
    rw [hstart]
    exact (foldl_blobsStart e (rowOf (key, entry))).symm

theorem foldl_writtenRow (e : Encoded) (rows : List Row) :
    rows.foldl writtenRow e =
      { output := e.output ++ rows.flatMap rowLayout
        used := e.used + totalBytes rows
        blobs := e.blobs + totalBlobs rows } := by
  induction rows generalizing e with
  | nil => simp [totalBytes, totalBlobs]
  | cons row rows ih =>
    rw [List.foldl_cons, ih]
    simp only [writtenRow, totalBytes, totalBlobs, List.flatMap_cons, List.map_cons,
      List.sum_cons, List.append_assoc, Nat.add_assoc]

theorem admits_writtenRows {e : Encoded} (hused : e.used ≤ QUOTA) (hblobs : e.blobs ≤ BLOB_LIMIT)
    (hlen : e.output.length ≤ QUOTA + METADATA_LIMIT) {rows : List Row}
    (hnodup : ∀ row ∈ rows, (row.blobs.map Prod.fst).Nodup) :
    Admits WriteStep writtenRow e rows ↔
      (∀ row ∈ rows, RowOk row) ∧ e.blobs + totalBlobs rows ≤ BLOB_LIMIT ∧
      e.used + totalBytes rows ≤ QUOTA ∧
      (e.output ++ rows.flatMap rowLayout).length ≤ QUOTA + METADATA_LIMIT := by
  induction rows generalizing e with
  | nil => simp [Admits, totalBlobs, totalBytes, hused, hblobs, hlen]
  | cons row rows ih =>
    simp only [List.forall_mem_cons] at hnodup
    have hcounts : e.blobs + totalBlobs (row :: rows) =
        e.blobs + row.blobs.length + totalBlobs rows := by
      simp only [totalBlobs, List.map_cons, List.sum_cons, Nat.add_assoc]
    have hsizes : e.used + totalBytes (row :: rows) =
        e.used + blobBytes row.blobs + totalBytes rows := by
      simp only [totalBytes, List.map_cons, List.sum_cons, Nat.add_assoc]
    have houtput : e.output ++ (row :: rows).flatMap rowLayout =
        (writtenRow e row).output ++ rows.flatMap rowLayout := by
      simp only [writtenRow, List.flatMap_cons, List.append_assoc]
    have hadmits := admits_writtenBlobs (e := blobsStart e row) hused row.blobs
    simp only [Admits, List.forall_mem_cons, hcounts, hsizes, houtput]
    constructor
    · rintro ⟨hstep, hrest⟩
      obtain ⟨hnames, hbytes⟩ := hadmits.mp hstep.blobs
      obtain ⟨hrows, htotal⟩ := (ih hbytes hstep.count hstep.length hnodup.2).mp hrest
      exact ⟨⟨⟨hstep.key, hstep.keyName, hstep.displayName, hstep.modified, hnames, hnodup.1⟩,
        hrows⟩, htotal⟩
    · rintro ⟨⟨hrow, hrows⟩, htotal, hbytes, hlength⟩
      have hcount : e.blobs + row.blobs.length ≤ BLOB_LIMIT := by omega
      have hsize : e.used + blobBytes row.blobs ≤ QUOTA := by omega
      have hout : (writtenRow e row).output.length ≤ QUOTA + METADATA_LIMIT := by
        rw [List.length_append] at hlength
        omega
      exact ⟨⟨hrow.key, hrow.keyName, hrow.displayName, hrow.modified, hcount,
        hadmits.mpr ⟨hrow.blobNames, hsize⟩, hout⟩,
        (ih hsize hcount hout hnodup.2).mpr ⟨hrows, htotal, hbytes, hlength⟩⟩

/-! ## The file -/

theorem rowsOf_nodup (s : State) : ((rowsOf s).map Row.key).Nodup := by
  rw [rowsOf, List.map_map]
  exact nodup_keys_toList s.containers

theorem rowsOf_blobs_nodup (s : State) :
    ∀ row ∈ rowsOf s, (row.blobs.map Prod.fst).Nodup := by
  intro row hrow
  obtain ⟨entry, -, rfl⟩ := List.mem_map.mp hrow
  exact nodup_keys_toList entry.2.blobs

theorem rowsOf_length (s : State) : (rowsOf s).length = s.containers.size := by
  rw [rowsOf, List.length_map, Std.ExtTreeMap.length_toList]

/-- `encode` writes the frame of the ascending rows, if they are admissible and not too long. -/
theorem encode_eq_ok [Sha256] {s : State} {data : Bytes} :
    encode s = .ok data ↔ RowsOk (rowsOf s) ∧
      (bodyLayout s.generation (rowsOf s)).length ≤ QUOTA + METADATA_LIMIT ∧
      data = frame s.generation (rowsOf s) := by
  have hheader : MAGIC ++ leBytes 4 1 ++ leBytes 8 s.generation.toNat ++
      leBytes 4 (rowsOf s).length = headerLayout s.generation (rowsOf s).length := rfl
  have hstart (n : Nat) : (headerLayout s.generation n).length ≤ QUOTA + METADATA_LIMIT := by
    simp only [headerLayout, List.length_append, leBytes_length]
    decide
  have hadmits := admits_writtenRows (e := ⟨headerLayout s.generation (rowsOf s).length, 0, 0⟩)
    (Nat.zero_le _) (Nat.zero_le _) (hstart _) (rowsOf_blobs_nodup s)
  simp only [encode, bind_eq_ok, require_eq_ok, decide_eq_true_eq,
    foldlM_eq_ok encodeContainer_eq_ok, Admits.map, ← rowsOf_length, hheader]
  have hfold : s.containers.toList.foldl (fun e entry => writtenRow e (rowOf entry))
      ⟨headerLayout s.generation (rowsOf s).length, 0, 0⟩ =
      ⟨bodyLayout s.generation (rowsOf s), totalBytes (rowsOf s), totalBlobs (rowsOf s)⟩ := by
    rw [← List.foldl_map, ← rowsOf, foldl_writtenRow]
    simp only [bodyLayout, Nat.zero_add]
  rw [hfold, ← rowsOf, hadmits]
  simp only [Nat.zero_add]
  constructor
  · rintro ⟨-, hcount, _, ⟨⟨hrows, hblobs, hused, hlen⟩, rfl⟩, h⟩
    cases h
    exact ⟨⟨hrows, rowsOf_nodup s, hcount, hblobs, hused⟩, hlen, rfl⟩
  · rintro ⟨hok, hlen, rfl⟩
    exact ⟨(), hok.count, _, ⟨⟨hok.each, hok.blobs, hok.used, hlen⟩, rfl⟩, rfl⟩

end Flightdeck.SaveState
