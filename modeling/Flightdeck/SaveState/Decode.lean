import Flightdeck.SaveState.Layout

/-!
# What `decode` accepts

Each loop of `decode` reads one row a turn.  The running budgets turn into bounds on the sums over
all rows, and the duplicate checks into the absence of duplicate names.
-/

namespace Flightdeck.SaveState

open Foundation

/-! ## Blobs -/

def nextBlob (b : Container × Nat) (blob : String × Bytes) : Container × Nat :=
  ({ b.1 with blobs := b.1.blobs.insert blob.1 blob.2 }, b.2 + blob.2.length)

structure BlobStep (b : Container × Nat) (blob : String × Bytes) : Prop where
  name : BlobNameOk blob.1
  fresh : blob.1 ∉ b.1.blobs
  used : b.2 + blob.2.length ≤ QUOTA

theorem accepts_decodeBlob (b : Container × Nat) :
    Accepts (decodeBlob b)
      (fun b' bs => ∃ blob, BlobStep b blob ∧ b' = nextBlob b blob ∧ bs = blobLayout blob) := by
  obtain ⟨entry, used⟩ := b
  have hlimit : 256 < 2 ^ 32 := by decide
  refine ((accepts_readText hlimit).bind fun key => Accepts.lift fun _ => Accepts.lift fun _ =>
    accepts_readU32.bind fun size => Accepts.lift fun left => Accepts.lift fun _ =>
    (accepts_take size.toNat).bind fun bytes => Accepts.pure _).congr fun b' bs => ?_
  simp only [require_eq_ok, checkedSub_eq_ok, decide_eq_true_eq, Bool.not_eq_true',
    Bool.eq_false_iff, ne_eq,
    Std.ExtTreeMap.contains_iff_mem]
  constructor
  · rintro ⟨key, _, _, ⟨htext, rfl⟩, rfl, ⟨⟩, hname, -, hfresh, size, _, _, rfl, rfl, _,
      ⟨hused, rfl⟩, -, hsize, bytes, _, _, ⟨hlen, rfl⟩, rfl, rfl, rfl⟩
    refine ⟨(key, bytes), ⟨⟨htext, hname⟩, hfresh, ?_⟩, ?_, ?_⟩
    · change used + bytes.length ≤ QUOTA
      omega
    · simp only [nextBlob, hlen]
    · simp only [blobLayout, hlen, List.append_assoc, List.append_nil]
  · rintro ⟨⟨key, bytes⟩, ⟨⟨htext, hname⟩, hfresh, hused⟩, rfl, rfl⟩
    change used + bytes.length ≤ QUOTA at hused
    have hquota : QUOTA < 2 ^ 32 := by decide
    have hlen : bytes.length ≤ QUOTA := by omega
    obtain ⟨n, hn⟩ := exists_u32_eq hquota hlen
    refine ⟨key, _, leBytes 4 bytes.length ++ bytes, ⟨htext, rfl⟩, ?_, (), hname, (), hfresh, n, _,
      bytes, rfl, ?_, _, ⟨by omega, rfl⟩, (), by omega, bytes, _, [], ⟨hn.symm, rfl⟩, ?_, ?_, rfl⟩
    · simp only [blobLayout, List.append_assoc]
    · rw [hn]
    · rw [List.append_nil]
    · simp only [nextBlob, hn]

theorem foldl_nextBlob (b : Container × Nat) (blobs : List (String × Bytes)) :
    blobs.foldl nextBlob b =
      ({ b.1 with blobs := insertAll b.1.blobs blobs }, b.2 + blobBytes blobs) := by
  induction blobs generalizing b with
  | nil => rfl
  | cons blob blobs ih =>
    rw [List.foldl_cons, ih]
    simp only [nextBlob, blobBytes, insertAll, List.foldl_cons, List.map_cons, List.sum_cons,
      Nat.add_assoc]

/-- The checks of all turns together. -/
theorem admits_blobs {b : Container × Nat} (hb : b.2 ≤ QUOTA) (blobs : List (String × Bytes)) :
    Admits BlobStep nextBlob b blobs ↔
      (∀ blob ∈ blobs, BlobNameOk blob.1) ∧ (blobs.map Prod.fst).Nodup ∧
      (∀ blob ∈ blobs, blob.1 ∉ b.1.blobs) ∧ b.2 + blobBytes blobs ≤ QUOTA := by
  induction blobs generalizing b with
  | nil => simp [Admits, blobBytes, hb]
  | cons blob blobs ih =>
    have hsum : b.2 + blobBytes (blob :: blobs) = b.2 + blob.2.length + blobBytes blobs := by
      simp only [blobBytes, List.map_cons, List.sum_cons, Nat.add_assoc]
    have hmem (key : String) : key ∈ (nextBlob b blob).1.blobs ↔ blob.1 = key ∨ key ∈ b.1.blobs := by
      simp only [nextBlob, Std.ExtTreeMap.mem_insert, Std.LawfulEqCmp.compare_eq_iff_eq]
    simp only [Admits, List.forall_mem_cons, List.map_cons, List.nodup_cons, hsum]
    constructor
    · rintro ⟨⟨hname, hfresh, hused⟩, hrest⟩
      obtain ⟨hnames, hnodup, hfreshes, htotal⟩ := (ih hused).mp hrest
      refine ⟨⟨hname, hnames⟩, ⟨?_, hnodup⟩, ⟨hfresh, ?_⟩, htotal⟩
      · intro hin
        obtain ⟨other, hother, heq⟩ := List.mem_map.mp hin
        exact hfreshes other hother ((hmem _).mpr (Or.inl heq.symm))
      · exact fun other hother hin => hfreshes other hother ((hmem _).mpr (Or.inr hin))
    · rintro ⟨⟨hname, hnames⟩, ⟨hnotin, hnodup⟩, ⟨hfresh, hfreshes⟩, htotal⟩
      have hused : b.2 + blob.2.length ≤ QUOTA := by omega
      refine ⟨⟨hname, hfresh, hused⟩, (ih hused).mpr ⟨hnames, hnodup, ?_, htotal⟩⟩
      intro other hother hin
      rcases (hmem _).mp hin with heq | hin
      · exact hnotin (heq ▸ List.mem_map_of_mem hother)
      · exact hfreshes other hother hin

/-! ## Containers -/

def Row.head (row : Row) : Container where
  displayName := row.displayName
  modified := row.modified
  blobs := ∅

def nextRow (d : Decoded) (row : Row) : Decoded where
  state := { d.state with containers := d.state.containers.insert row.key row.container }
  used := d.used + blobBytes row.blobs
  blobs := d.blobs + row.blobs.length

structure RowStep (d : Decoded) (row : Row) : Prop where
  key : TextOk 256 row.key
  keyName : name row.key true = .ok ()
  fresh : row.key ∉ d.state.containers
  displayName : TextOk 4096 row.displayName
  modified : row.modified.toNat ≤ I64_MAX
  count : d.blobs + row.blobs.length ≤ BLOB_LIMIT
  blobs : Admits BlobStep nextBlob (row.head, d.used) row.blobs

theorem accepts_decodeContainer (d : Decoded) :
    Accepts (decodeContainer d)
      (fun d' bs => ∃ row, RowStep d row ∧ d' = nextRow d row ∧ bs = rowLayout row) := by
  have hkey : 256 < 2 ^ 32 := by decide
  have hdisplay : 4096 < 2 ^ 32 := by decide
  refine ((accepts_readText hkey).bind fun key => Accepts.lift fun _ => Accepts.lift fun _ =>
    (accepts_readText hdisplay).bind fun displayName => accepts_readU64.bind fun modified =>
    Accepts.lift fun _ => accepts_readU32.bind fun count => Accepts.lift fun left =>
    Accepts.lift fun _ => (Accepts.forCount accepts_decodeBlob count.toNat _).bind fun x =>
    Accepts.pure _).congr fun d' bs => ?_
  simp only [require_eq_ok, checkedSub_eq_ok, decide_eq_true_eq, Bool.not_eq_true',
    Bool.eq_false_iff, ne_eq, Std.ExtTreeMap.contains_iff_mem, foldl_nextBlob]
  constructor
  · rintro ⟨key, _, _, ⟨hkey, rfl⟩, rfl, ⟨⟩, hname, -, hfresh, displayName, _, _,
      ⟨hdisplay, rfl⟩, rfl, modified, _, _, rfl, rfl, -, hmodified, count, _, _, rfl, rfl, _,
      ⟨hblobs, rfl⟩, -, hcount, _, _, _, ⟨blobs, hlen, hadmits, rfl, rfl⟩, rfl, rfl, rfl⟩
    refine ⟨⟨key, displayName, modified, blobs⟩,
      ⟨hkey, hname, hfresh, hdisplay, hmodified, ?_, hadmits⟩, ?_, ?_⟩
    · change d.blobs + blobs.length ≤ BLOB_LIMIT
      omega
    · simp only [nextRow, Row.container, hlen]
    · simp only [rowLayout, hlen, List.append_assoc, List.append_nil]
  · rintro ⟨⟨key, displayName, modified, blobs⟩,
      ⟨hkey, hname, hfresh, hdisplay, hmodified, hcount, hadmits⟩, rfl, rfl⟩
    change d.blobs + blobs.length ≤ BLOB_LIMIT at hcount
    have hlimit : BLOB_LIMIT < 2 ^ 32 := by decide
    have hlen : blobs.length ≤ BLOB_LIMIT := by omega
    obtain ⟨n, hn⟩ := exists_u32_eq hlimit hlen
    refine ⟨key, _, _, ⟨hkey, rfl⟩, ?_, (), hname, (), hfresh, displayName, _, _,
      ⟨hdisplay, rfl⟩, rfl, modified, _, _, rfl, rfl, (), hmodified, n, _,
      blobs.flatMap blobLayout ++ [], rfl, rfl, _, ⟨by omega, rfl⟩, (), by omega, _, _, _,
      ⟨blobs, hn.symm, hadmits, rfl, rfl⟩, rfl, ?_, rfl⟩
    · simp only [rowLayout, hn, List.append_assoc, List.append_nil]
    · simp only [nextRow, Row.container, hn]

theorem foldl_nextRow (d : Decoded) (rows : List Row) :
    rows.foldl nextRow d =
      { state := { d.state with
          containers := insertAll d.state.containers (rows.map Row.entry) }
        used := d.used + totalBytes rows
        blobs := d.blobs + totalBlobs rows } := by
  induction rows generalizing d with
  | nil => rfl
  | cons row rows ih =>
    rw [List.foldl_cons, ih]
    simp only [nextRow, totalBytes, totalBlobs, insertAll, Row.entry, List.foldl_cons,
      List.map_cons, List.sum_cons, Nat.add_assoc]

/-- The running budgets of all turns together. -/
theorem admits_rows {d : Decoded} (hused : d.used ≤ QUOTA) (hblobs : d.blobs ≤ BLOB_LIMIT)
    (rows : List Row) :
    Admits RowStep nextRow d rows ↔
      (∀ row ∈ rows, RowOk row) ∧ (rows.map Row.key).Nodup ∧
      (∀ row ∈ rows, row.key ∉ d.state.containers) ∧
      d.blobs + totalBlobs rows ≤ BLOB_LIMIT ∧ d.used + totalBytes rows ≤ QUOTA := by
  induction rows generalizing d with
  | nil => simp [Admits, totalBlobs, totalBytes, hused, hblobs]
  | cons row rows ih =>
    have hcounts : d.blobs + totalBlobs (row :: rows) =
        d.blobs + row.blobs.length + totalBlobs rows := by
      simp only [totalBlobs, List.map_cons, List.sum_cons, Nat.add_assoc]
    have hsizes : d.used + totalBytes (row :: rows) =
        d.used + blobBytes row.blobs + totalBytes rows := by
      simp only [totalBytes, List.map_cons, List.sum_cons, Nat.add_assoc]
    have hmem (key : String) : key ∈ (nextRow d row).state.containers ↔
        row.key = key ∨ key ∈ d.state.containers := by
      simp only [nextRow, Std.ExtTreeMap.mem_insert, Std.LawfulEqCmp.compare_eq_iff_eq]
    have hadmits := admits_blobs (b := (row.head, d.used)) hused row.blobs
    simp only [Admits, List.forall_mem_cons, List.map_cons, List.nodup_cons, hcounts, hsizes]
    constructor
    · rintro ⟨hstep, hrest⟩
      obtain ⟨hnames, hnodup, -, hbytes⟩ := hadmits.mp hstep.blobs
      obtain ⟨hrows, hkeys, hfreshes, htotal⟩ := (ih hbytes hstep.count).mp hrest
      refine ⟨⟨⟨hstep.key, hstep.keyName, hstep.displayName, hstep.modified, hnames, hnodup⟩,
        hrows⟩, ⟨?_, hkeys⟩, ⟨hstep.fresh, ?_⟩, htotal⟩
      · intro hin
        obtain ⟨other, hother, heq⟩ := List.mem_map.mp hin
        exact hfreshes other hother ((hmem _).mpr (Or.inl heq.symm))
      · exact fun other hother hin => hfreshes other hother ((hmem _).mpr (Or.inr hin))
    · rintro ⟨⟨hrow, hrows⟩, ⟨hnotin, hkeys⟩, ⟨hfresh, hfreshes⟩, htotal, hbytes⟩
      have hcount : d.blobs + row.blobs.length ≤ BLOB_LIMIT := by omega
      have hsize : d.used + blobBytes row.blobs ≤ QUOTA := by omega
      refine ⟨⟨hrow.key, hrow.keyName, hfresh, hrow.displayName, hrow.modified, hcount,
        hadmits.mpr ⟨hrow.blobNames, hrow.nodup, by simp [Row.head], hsize⟩⟩,
        (ih hsize hcount).mpr ⟨hrows, hkeys, ?_, htotal, hbytes⟩⟩
      intro other hother hin
      rcases (hmem _).mp hin with heq | hin
      · exact hnotin (heq ▸ List.mem_map_of_mem hother)
      · exact hfreshes other hother hin

/-! ## The file -/

/-- `decodeBody` before its last check. -/
def decodeRows : Reader Decoded := do
  require ((← readU32) == 1) INVALID
  let generation ← readU64
  let count := (← readU32).toNat
  require (count ≤ CONTAINER_LIMIT) INVALID
  forCount decodeContainer count { state := { generation }, used := 0, blobs := 0 }

theorem decodeBody_eq : decodeBody = do
    let d ← decodeRows
    let reader ← get
    require (reader.position == reader.data.length) INVALID
    return d.state := by
  simp only [decodeBody, decodeRows, bind_assoc]

/-- What follows the magic. -/
def tailLayout (generation : UInt64) (rows : List Row) : Bytes :=
  leBytes 4 1 ++ (leBytes 8 generation.toNat ++ (leBytes 4 rows.length ++
    rows.flatMap rowLayout))

theorem accepts_decodeRows :
    Accepts decodeRows (fun d bs => ∃ generation rows, RowsOk rows ∧
      d.state = { generation, containers := insertAll ∅ (rows.map Row.entry) } ∧
      d.used = totalBytes rows ∧ d.blobs = totalBlobs rows ∧
      bs = tailLayout generation rows) := by
  refine (accepts_readU32.bind fun version => Accepts.lift fun _ => accepts_readU64.bind
    fun generation => accepts_readU32.bind fun count => Accepts.lift fun _ =>
    Accepts.forCount accepts_decodeContainer count.toNat _).congr fun d bs => ?_
  have hadmits (generation : UInt64) (rows : List Row) :=
    admits_rows (d := { state := { generation }, used := 0, blobs := 0 })
      (Nat.zero_le _) (Nat.zero_le _) rows
  simp only [require_eq_ok, beq_iff_eq, decide_eq_true_eq, hadmits, foldl_nextRow, Nat.zero_add,
    Std.ExtTreeMap.not_mem_empty, not_false_eq_true, implies_true, true_and]
  constructor
  · rintro ⟨version, _, _, rfl, rfl, -, rfl, generation, _, _, rfl, rfl, count, _, _, rfl, rfl, -,
      hcount, rows, hlen, ⟨hrows, hkeys, hblobs, hused⟩, rfl, rfl⟩
    refine ⟨generation, rows, ⟨hrows, hkeys, hlen ▸ hcount, hblobs, hused⟩, rfl, rfl, rfl, ?_⟩
    rw [tailLayout, hlen]
    rfl
  · rintro ⟨generation, rows, hok, hstate, hused, hblobs, rfl⟩
    have hlimit : CONTAINER_LIMIT < 2 ^ 32 := by decide
    obtain ⟨n, hn⟩ := exists_u32_eq hlimit hok.count
    refine ⟨1, _, _, rfl, rfl, (), rfl, generation, _, _, rfl, rfl, n, _, _, rfl, ?_, (), ?_, rows,
      hn.symm, ⟨hok.each, hok.nodup, hok.blobs, hok.used⟩, ?_, rfl⟩
    · rw [hn]
    · exact hn ▸ hok.count
    · cases d
      simp only at hstate hused hblobs
      rw [hstate, hused, hblobs]

theorem decodeBody_eq_ok {c : Cursor UInt8} {s : State} :
    (∃ c', decodeBody c = .ok (s, c')) ↔ ∃ rows, RowsOk rows ∧
      s.containers = insertAll ∅ (rows.map Row.entry) ∧ c.rest = tailLayout s.generation rows := by
  have hend (c' : Cursor UInt8) : c'.position = c'.data.length ↔ c'.rest = [] := by
    rw [Cursor.rest, List.drop_eq_nil_iff]
    have := c'.inside
    omega
  have hrun : decodeBody c = (decodeRows c).bind fun x =>
      (require (x.2.position == x.2.data.length) INVALID).bind fun _ => .ok (x.1.state, x.2) := by
    rw [decodeBody_eq]
    change (decodeRows c).bind _ = _
    congr 1
    funext x
    change ((require _ INVALID).map _).bind _ = _
    cases x.2.position == x.2.data.length <;> rfl
  rw [hrun]
  constructor
  · rintro ⟨c', h⟩
    cases hd : decodeRows c with
    | error e => rw [hd] at h; cases h
    | ok x =>
      rw [hd] at h
      cases hcheck : x.2.position == x.2.data.length with
      | false =>
        simp only [Except.bind, hcheck, require_false] at h
        cases h
      | true =>
        simp only [Except.bind, hcheck, require_true] at h
        cases h
        obtain ⟨_, ⟨generation, rows, hok, hstate, -, -, rfl⟩, hread⟩ :=
          (accepts_decodeRows c x.1 x.2).mp hd
        refine ⟨rows, hok, by rw [hstate], ?_⟩
        rw [hread.2, (hend _).mp (beq_iff_eq.mp hcheck), List.append_nil, hstate]
  · rintro ⟨rows, hok, hcontainers, hrest⟩
    have hall : c.rest = tailLayout s.generation rows ++ [] := by rw [hrest, List.append_nil]
    obtain ⟨c₁, hread, hnil⟩ := Cursor.exists_reads hall
    have hd := (accepts_decodeRows c ⟨s, totalBytes rows, totalBlobs rows⟩ c₁).mpr
      ⟨_, ⟨s.generation, rows, hok, by rw [← hcontainers], rfl, rfl, rfl⟩, hread⟩
    refine ⟨c₁, ?_⟩
    rw [hd]
    simp only [Except.bind, beq_iff_eq.mpr ((hend c₁).mpr hnil), require_true]

theorem bodyLayout_eq (generation : UInt64) (rows : List Row) :
    bodyLayout generation rows = MAGIC ++ tailLayout generation rows := by
  simp only [bodyLayout, headerLayout, tailLayout, List.append_assoc]

theorem magic_length : MAGIC.length = 8 := by decide

theorem twentyFour_le_bodyLayout (generation : UInt64) (rows : List Row) :
    24 ≤ (bodyLayout generation rows).length := by
  simp only [bodyLayout, headerLayout, List.length_append, leBytes_length, magic_length]
  omega

theorem frame_length [Sha256] (generation : UInt64) (rows : List Row) :
    (frame generation rows).length = (bodyLayout generation rows).length + 32 := by
  rw [frame, List.length_append, Sha256.digest_length]

theorem decode_run [Sha256] {data : Bytes} {s : State} :
    decode data = .ok s ↔ 56 ≤ data.length ∧
      data.length ≤ QUOTA + METADATA_LIMIT + 32 ∧ MAGIC <+: data ∧
      Sha256.digest (data.take (data.length - 32)) = data.drop (data.length - 32) ∧
      ∃ c', decodeBody (.startAt (data.take (data.length - 32)) 8) = .ok (s, c') := by
  simp only [decode, bind_eq_ok, require_eq_ok, checkedSub_eq_ok, List.splitAt_eq,
    Bool.and_eq_true, decide_eq_true_eq, List.isPrefixOf_iff_prefix, beq_iff_eq]
  constructor
  · rintro ⟨-, ⟨⟨hmin, hmax⟩, hmagic⟩, _, ⟨-, rfl⟩, -, hdigest, ⟨s', c'⟩, hbody, heq⟩
    cases heq
    exact ⟨hmin, hmax, hmagic, hdigest, c', hbody⟩
  · rintro ⟨hmin, hmax, hmagic, hdigest, c', hbody⟩
    exact ⟨(), ⟨⟨hmin, hmax⟩, hmagic⟩, _, ⟨by omega, rfl⟩, (), hdigest, _, hbody, rfl⟩

/-- `decode` accepts exactly the frames of admissible rows and returns the map of their entries. -/
theorem decode_eq_ok [Sha256] {data : Bytes} {s : State} :
    decode data = .ok s ↔ ∃ rows, RowsOk rows ∧
      s.containers = insertAll ∅ (rows.map Row.entry) ∧
      (bodyLayout s.generation rows).length ≤ QUOTA + METADATA_LIMIT ∧
      data = frame s.generation rows := by
  rw [decode_run]
  constructor
  · rintro ⟨hmin, hmax, ⟨rest, hmagic⟩, hdigest, hbody⟩
    obtain ⟨rows, hok, hcontainers, hrest⟩ := decodeBody_eq_ok.mp hbody
    rw [Cursor.startAt_rest] at hrest
    have hhead : (data.take (data.length - 32)).take 8 = MAGIC := by
      rw [List.take_take, Nat.min_eq_left (by omega), ← hmagic, ← magic_length, List.take_left]
    have hlayout : data.take (data.length - 32) = bodyLayout s.generation rows := by
      rw [bodyLayout_eq, ← hrest, ← hhead, List.take_append_drop]
    refine ⟨rows, hok, hcontainers, ?_, ?_⟩
    · rw [← hlayout, List.length_take]
      omega
    · rw [frame, ← hlayout, hdigest, List.take_append_drop]
  · rintro ⟨rows, hok, hcontainers, hlen, rfl⟩
    have hmin := twentyFour_le_bodyLayout s.generation rows
    rw [frame_length, Nat.add_sub_cancel, frame, List.take_left, List.drop_left]
    refine ⟨by omega, by omega, ?_, rfl, decodeBody_eq_ok.mpr ⟨rows, hok, hcontainers, ?_⟩⟩
    · rw [bodyLayout_eq, List.append_assoc]
      exact List.prefix_append _ _
    · rw [Cursor.startAt_rest, bodyLayout_eq, ← magic_length, List.drop_left]

end Flightdeck.SaveState
