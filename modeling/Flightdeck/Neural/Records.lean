import Flightdeck.SaveState.Layout

/-!
# The archive of neural weights

`neural_decode::records`: a length, then one framed record for each name of `record_sizes`, in any
order.  The source adds some offsets without a check; such a sum is checked here and marked if it
leaves `usize`.
-/

namespace Flightdeck.Neural

open Foundation

def INVALID : Error := .invalid "Invalid or unsupported NR weight archive."

/-- The sizes of the layers of a block. -/
def layers (b : Nat) : List Nat :=
  if (23 ≤ b ∧ b < 31) ∨ (40 ≤ b ∧ b < 48) then
    [524288, 263168, 917568, 263168] ++ if b = 30 then [524304] else []
  else if 31 ≤ b ∧ b < 39 then
    [4194320, 4196352, 3145856, 2, 1050624]
  else
    [match b with
    | 0 => 21696
    | 4 => 22720
    | 8 => 69936
    | 14 => 229936
    | 22 => 820288
    | 39 => 525312
    | 48 => 820784
    | 56 => 230176
    | 62 => 70048
    | 66 => 22784
    | 70 => 21808
    | _ =>
      if ¬(5 ≤ b ∧ b < 66) then 20672
      else if ¬(9 ≤ b ∧ b < 62) then 61760
      else if ¬(15 ≤ b ∧ b < 56) then 197184
      else 689232]

def recordRows : List (String × Nat) :=
  (List.range 71).flatMap (fun b => (layers b).zipIdx.map fun (size, layer) =>
    (s!"block{b}.layer{layer}.layer", size)) ++ [("block70.layer0.blend_scale", 2)]

def recordSizes : TextMap Nat := insertAll ∅ recordRows

/-- Addition on `usize`. -/
def checkedAdd (a b : Nat) : Except Error Nat :=
  if a + b < 2 ^ 64 then .ok (a + b) else .error .arithmetic

def slice (data : Bytes) (offset count : Nat) : Except Error Bytes :=
  if offset + count < 2 ^ 64 ∧ offset + count ≤ data.length then
    .ok ((data.drop offset).take count)
  else
    .error INVALID

def u64At (data : Bytes) (offset : Nat) : Except Error Nat := do
  return leNat (← slice data offset 8)

/-- `size as u32 / 2` after four constants. -/
def trailer (size : Nat) : Bytes := [0, 0, 1, 0, size % 2 ^ 32 / 2].flatMap (leBytes 4)

/-- One turn of the loop: where the next record starts, and the records so far. -/
def recordAt (data : Bytes) (cursor : Nat) (result : TextMap Bytes) :
    Except Error (Nat × TextMap Bytes) := do
  let nameLen ← u64At data cursor
  require (1 ≤ nameLen && nameLen ≤ 4096) INVALID
  let nameStart ← checkedAdd cursor 8
  let rawName ← slice data nameStart nameLen
  require (rawName.all (· < 128)) INVALID
  let name ← (SaveState.fromUtf8 rawName).mapError fun _ => INVALID
  let spanStart ← checkedAdd nameStart nameLen
  let span ← u64At data spanStart
  let bodyStart ← checkedAdd (← checkedAdd cursor 16) nameLen
  let body ← slice data bodyStart span
  let some size := recordSizes[name]? | throw INVALID
  require (span == (← checkedAdd size 40)) INVALID
  require ((← u64At body 0) == span) INVALID
  require ((← u64At body 8) == size) INVALID
  require ((← slice body 16 4) == leBytes 4 1) INVALID
  require ((← slice body (← checkedAdd 20 size) 20) == trailer size) INVALID
  let payload ← slice body 20 size
  require (!result.contains name) INVALID
  let next ← checkedAdd bodyStart span
  return (next, result.insert name payload)

theorem checkedAdd_eq_ok {a b n : Nat} : checkedAdd a b = .ok n ↔ a + b < 2 ^ 64 ∧ n = a + b := by
  unfold checkedAdd
  by_cases h : a + b < 2 ^ 64
  · rw [if_pos h, Except.ok.injEq, eq_comm]
    exact (and_iff_right h).symm
  · rw [if_neg h]
    exact ⟨nofun, fun hsum => absurd hsum.1 h⟩

/-- A record ends after it starts. -/
theorem recordAt_advances {data : Bytes} {cursor next : Nat} {result result' : TextMap Bytes}
    (h : recordAt data cursor result = .ok (next, result')) : cursor < next := by
  unfold recordAt at h
  simp only [bind_eq_ok] at h
  obtain ⟨nameLen, -, _, -, _, -, _, -, _, -, name, -, _, -, span, -, first, hfirst, start, hstart,
    body, -, h⟩ := h
  cases hsize : recordSizes[name]? with
  | none =>
    rw [hsize] at h
    cases h
  | some size =>
    rw [hsize] at h
    simp only [bind_eq_ok, pure_eq_ok, Prod.mk.injEq] at h
    obtain ⟨_, -, _, -, _, -, _, -, _, -, _, -, _, -, _, -, _, -, _, -, _, -, _, -, _, -, _, hnext,
      rfl, -⟩ := h
    rw [checkedAdd_eq_ok] at hfirst hstart hnext
    omega

def recordsLoop (data : Bytes) (cursor : Nat) (result : TextMap Bytes) :
    Except Error (TextMap Bytes) :=
  if _hcursor : cursor < data.length then
    match _hrecord : recordAt data cursor result with
    | .error e => .error e
    | .ok (next, result') => recordsLoop data next result'
  else
    .ok result
termination_by data.length - cursor
decreasing_by
  have := recordAt_advances _hrecord
  omega

def records (data : Bytes) : Except Error (TextMap Bytes) := do
  require ((← u64At data 0) == data.length) INVALID
  let result ← recordsLoop data 8 ∅
  require (result.size == recordSizes.size) INVALID
  return result

/-! ## Frames -/

/-- What follows the span of a record: span and size again, the tag, the payload, the trailer. -/
def frameBody (payload : Bytes) : Bytes :=
  leBytes 8 (payload.length + 40) ++ (leBytes 8 payload.length ++
    (leBytes 4 1 ++ (payload ++ trailer payload.length)))

/-- The framed record of a name. -/
def frame (name : String) (payload : Bytes) : Bytes :=
  leBytes 8 (utf8 name).length ++ (utf8 name ++
    (leBytes 8 (payload.length + 40) ++ frameBody payload))

theorem trailer_length (size : Nat) : (trailer size).length = 20 := by
  simp [trailer]

theorem frameBody_length (payload : Bytes) : (frameBody payload).length = payload.length + 40 := by
  simp only [frameBody, List.length_append, leBytes_length, trailer_length]
  omega

theorem frame_length (name : String) (payload : Bytes) :
    (frame name payload).length = 16 + (utf8 name).length + (payload.length + 40) := by
  simp only [frame, List.length_append, leBytes_length, frameBody_length]
  omega

/-! ## Slices -/

section

variable {data s rest : Bytes} {offset count n : Nat}

theorem drop_next (h : data.drop offset = s ++ rest) : data.drop (offset + s.length) = rest := by
  rw [← List.drop_drop, h, List.drop_left]

theorem slice_eq_ok (h : slice data offset count = .ok s) :
    data.drop offset = s ++ data.drop (offset + count) ∧ s.length = count := by
  unfold slice at h
  by_cases hbound : offset + count < 2 ^ 64 ∧ offset + count ≤ data.length
  · rw [if_pos hbound] at h
    cases h
    constructor
    · rw [← List.drop_drop, List.take_append_drop]
    · rw [List.length_take, List.length_drop]
      omega
  · rw [if_neg hbound] at h
    cases h

theorem slice_of_drop (hdata : data.length < 2 ^ 64) (hoffset : offset ≤ data.length)
    (h : data.drop offset = s ++ rest) (hcount : s.length = count) :
    slice data offset count = .ok s := by
  have hlength : (data.drop offset).length = count + rest.length := by
    rw [h, List.length_append, hcount]
  rw [List.length_drop] at hlength
  unfold slice
  rw [if_pos (by omega), h, ← hcount, List.take_left]

theorem u64At_eq_ok (h : u64At data offset = .ok n) :
    data.drop offset = leBytes 8 n ++ data.drop (offset + 8) ∧ n < 2 ^ 64 := by
  unfold u64At at h
  simp only [bind_eq_ok, pure_eq_ok] at h
  obtain ⟨bytes, hbytes, rfl⟩ := h
  obtain ⟨hdrop, hlength⟩ := slice_eq_ok hbytes
  have hvalue := leBytes_leNat bytes
  have hbound := leNat_lt bytes
  rw [hlength] at hvalue hbound
  rw [hvalue]
  exact ⟨hdrop, hbound⟩

theorem u64At_of_drop (hdata : data.length < 2 ^ 64) (hoffset : offset ≤ data.length)
    (h : data.drop offset = leBytes 8 n ++ rest) (hn : n < 2 ^ 64) : u64At data offset = .ok n := by
  unfold u64At
  rw [slice_of_drop hdata hoffset h (leBytes_length 8 n)]
  exact congrArg Except.ok (leNat_leBytes hn)

/-- Offsets into a slice do not leave `usize`. -/
theorem checkedAdd_ok {a b : Nat} (h : a + b < 2 ^ 64) : checkedAdd a b = .ok (a + b) := if_pos h

end

/-! ## Names -/

/-- What the loop takes for granted of the names that are in the table. -/
theorem recordRows_plain : ∀ row ∈ recordRows, 1 ≤ (utf8 row.1).length ∧
    (utf8 row.1).length ≤ 4096 ∧ (utf8 row.1).all (· < 128) = true ∧ row.2 + 40 < 2 ^ 32 := by
  decide +kernel

theorem mem_of_insertAll {β : Type} {rows : List (String × β)} {m : TextMap β} {k : String} {v : β}
    (h : (insertAll m rows)[k]? = some v) : (k, v) ∈ rows ∨ m[k]? = some v := by
  induction rows generalizing m with
  | nil => exact .inr h
  | cons row rows ih =>
    rcases ih h with hmem | hm
    · exact .inl (List.mem_cons_of_mem _ hmem)
    · rw [getElem?_insert_eq] at hm
      by_cases hk : row.1 = k
      · rw [if_pos hk] at hm
        cases hm
        rw [← hk]
        exact .inl List.mem_cons_self
      · rw [if_neg hk] at hm
        exact .inr hm

theorem recordSizes_plain {name : String} {size : Nat} (h : recordSizes[name]? = some size) :
    1 ≤ (utf8 name).length ∧ (utf8 name).length ≤ 4096 ∧ (utf8 name).all (· < 128) = true ∧
      size + 40 < 2 ^ 32 := by
  rcases mem_of_insertAll h with hmem | hnone
  · exact recordRows_plain (name, size) hmem
  · simp at hnone

/-! ## One record -/

variable {data : Bytes} {cursor : Nat} {result : TextMap Bytes}

/-- The body of a record in its parts. -/
theorem body_parts {body payload : Bytes} {size : Nat} (hlength : body.length = size + 40)
    (hspan : u64At body 0 = .ok (size + 40)) (hsize : u64At body 8 = .ok size)
    (htag : slice body 16 4 = .ok (leBytes 4 1))
    (htrailer : slice body (20 + size) 20 = .ok (trailer size))
    (hpayload : slice body 20 size = .ok payload) :
    payload.length = size ∧ body = frameBody payload := by
  obtain ⟨hdrop0, -⟩ := u64At_eq_ok hspan
  obtain ⟨hdrop8, -⟩ := u64At_eq_ok hsize
  obtain ⟨hdrop16, -⟩ := slice_eq_ok htag
  obtain ⟨hdrop20, hpayloadlen⟩ := slice_eq_ok hpayload
  obtain ⟨hdrop, -⟩ := slice_eq_ok htrailer
  have hend : body.drop (20 + size + 20) = [] := List.drop_eq_nil_of_le (by omega)
  refine ⟨hpayloadlen, ?_⟩
  rw [List.drop_zero, Nat.zero_add, hdrop8, hdrop16, hdrop20, hdrop, hend,
    List.append_nil] at hdrop0
  rw [hdrop0, frameBody, hpayloadlen]

/-- The parts of a body are where a reader looks for them. -/
theorem frameBody_parts (payload : Bytes) (hsmall : payload.length + 40 < 2 ^ 32) :
    u64At (frameBody payload) 0 = .ok (payload.length + 40) ∧
      u64At (frameBody payload) 8 = .ok payload.length ∧
      slice (frameBody payload) 16 4 = .ok (leBytes 4 1) ∧
      slice (frameBody payload) 20 payload.length = .ok payload ∧
      slice (frameBody payload) (20 + payload.length) 20 = .ok (trailer payload.length) := by
  have hlength := frameBody_length payload
  have hinside : (frameBody payload).length < 2 ^ 64 := by omega
  have hagain := drop_next (show (frameBody payload).drop 0 = leBytes 8 (payload.length + 40) ++
    (leBytes 8 payload.length ++ (leBytes 4 1 ++ (payload ++ trailer payload.length))) from rfl)
  have htag := drop_next hagain
  have hload := drop_next htag
  have htrail := drop_next hload
  simp only [leBytes_length, Nat.zero_add, Nat.reduceAdd] at hagain htag hload htrail
  refine ⟨?_, ?_, ?_, ?_, ?_⟩
  · exact u64At_of_drop hinside (by omega) rfl (by omega)
  · exact u64At_of_drop hinside (by omega) hagain (by omega)
  · exact slice_of_drop hinside (by omega) htag (leBytes_length 4 1)
  · exact slice_of_drop hinside (by omega) hload rfl
  · rw [← List.append_nil (trailer payload.length)] at htrail
    exact slice_of_drop hinside (by omega) htrail (trailer_length _)

/-- A record that is accepted lies framed at the cursor. -/
theorem recordAt_framed {next : Nat} {result' : TextMap Bytes}
    (h : recordAt data cursor result = .ok (next, result')) :
    ∃ name payload, data.drop cursor = frame name payload ++ data.drop next ∧
      recordSizes[name]? = some payload.length ∧ result.contains name = false ∧
      next = cursor + (frame name payload).length ∧ result' = result.insert name payload := by
  unfold recordAt at h
  simp only [bind_eq_ok] at h
  obtain ⟨nameLen, hnameLen, _, -, nameStart, hnameStart, raw, hraw, _, -, name, hname, spanStart,
    hspanStart, span, hspan, first, hfirst, start, hstart, body, hbody, h⟩ := h
  cases hsize : recordSizes[name]? with
  | none =>
    rw [hsize] at h
    cases h
  | some size =>
    rw [hsize] at h
    simp only [bind_eq_ok, pure_eq_ok, Prod.mk.injEq, require_eq_ok, beq_iff_eq,
      Bool.not_eq_true'] at h
    obtain ⟨whole, hwhole, _, hspansize, span', hspan', _, hsame, size', hsize', _, hsamesize, tag,
      htag, _, hone, tail, htail, end', hend, _, htrailer, payload, hpayload, _, hfresh, after,
      hnext, rfl, rfl⟩ := h
    rw [checkedAdd_eq_ok] at hnameStart hspanStart hfirst hstart hnext hwhole htail
    rw [htail.2] at hend
    rw [hwhole.2] at hspansize
    rw [mapError_eq_ok, SaveState.fromUtf8_eq_ok] at hname
    subst hname hone htrailer hsame hsamesize hspansize
    obtain ⟨hdrop, -⟩ := u64At_eq_ok hnameLen
    obtain ⟨hdropname, hnamelen⟩ := slice_eq_ok hraw
    obtain ⟨hdropspan, -⟩ := u64At_eq_ok hspan
    obtain ⟨hdropbody, hbodylen⟩ := slice_eq_ok hbody
    obtain ⟨hpayloadlen, hbodyeq⟩ := body_parts hbodylen hspan' hsize' htag hend hpayload
    have hspanAt : nameStart + nameLen = spanStart := hspanStart.2.symm
    have hbodyAt : spanStart + 8 = start := by omega
    have hnextAt : start + (size' + 40) = after := hnext.2.symm
    refine ⟨name, payload, ?_, ?_, hfresh, ?_, rfl⟩
    · rw [hdrop, ← hnameStart.2, hdropname, hspanAt, hdropspan, hbodyAt, hdropbody, hnextAt,
        hbodyeq, frame, hnamelen, hpayloadlen]
      simp only [List.append_assoc]
    · rw [hpayloadlen]
      exact hsize
    · rw [frame_length, hnamelen, hpayloadlen]
      omega

/-- A framed record of a name that is not there yet is accepted. -/
theorem recordAt_of_frame (hdata : data.length < 2 ^ 64) {name : String} {payload rest : Bytes}
    (hcursor : cursor ≤ data.length) (hdrop : data.drop cursor = frame name payload ++ rest)
    (hsize : recordSizes[name]? = some payload.length) (hfresh : result.contains name = false) :
    recordAt data cursor result =
      .ok (cursor + (frame name payload).length, result.insert name payload) := by
  obtain ⟨hpos, hmax, hascii, hsmall⟩ := recordSizes_plain hsize
  have hlength : (frame name payload ++ rest).length = data.length - cursor := by
    rw [← hdrop, List.length_drop]
  rw [List.length_append, frame_length] at hlength
  -- the parts of the record, each where the part before it ends
  have hstart : data.drop cursor = leBytes 8 (utf8 name).length ++ (utf8 name ++
      (leBytes 8 (payload.length + 40) ++ (frameBody payload ++ rest))) := by
    rw [hdrop, frame]
    simp only [List.append_assoc]
  have hname := drop_next hstart
  have hspan := drop_next hname
  have hbody := drop_next hspan
  rw [leBytes_length] at hname hspan hbody
  have hlen : u64At data cursor = .ok (utf8 name).length :=
    u64At_of_drop hdata hcursor hstart (by omega)
  have hnameAt : slice data (cursor + 8) (utf8 name).length = .ok (utf8 name) :=
    slice_of_drop hdata (by omega) hname rfl
  have hspanAt : u64At data (cursor + 8 + (utf8 name).length) = .ok (payload.length + 40) :=
    u64At_of_drop hdata (by omega) hspan (by omega)
  have hstartAt : cursor + 8 + (utf8 name).length + (leBytes 8 (payload.length + 40)).length =
      cursor + 16 + (utf8 name).length := by
    rw [leBytes_length]
    omega
  rw [hstartAt] at hbody
  have hbodyAt : slice data (cursor + 16 + (utf8 name).length) (payload.length + 40) =
      .ok (frameBody payload) :=
    slice_of_drop hdata (by omega) hbody (frameBody_length payload)
  have hrange : (1 ≤ (utf8 name).length && (utf8 name).length ≤ 4096) = true := by
    simp only [hpos, hmax, decide_true, Bool.and_true]
  obtain ⟨hbody0, hbody8, hbody16, hbody20, hend⟩ := frameBody_parts payload (by omega)
  unfold recordAt
  simp only [bind_eq_ok]
  refine ⟨_, hlen, (), ?_, _, checkedAdd_ok (by omega), _, hnameAt, (), ?_, _,
    mapError_eq_ok.mpr (SaveState.fromUtf8_eq_ok.mpr rfl), _, checkedAdd_ok (by omega), _, hspanAt,
    _, checkedAdd_ok (by omega), _, checkedAdd_ok (by omega), _, hbodyAt, ?_⟩
  · exact require_eq_ok.mpr hrange
  · exact require_eq_ok.mpr hascii
  rw [hsize]
  simp only [bind_eq_ok]
  refine ⟨_, checkedAdd_ok (by omega), (), require_eq_ok.mpr (beq_self_eq_true _), _, hbody0, (),
    require_eq_ok.mpr (beq_self_eq_true _), _, hbody8, (), require_eq_ok.mpr (beq_self_eq_true _),
    _, hbody16, (), require_eq_ok.mpr (beq_self_eq_true _), _, checkedAdd_ok (by omega), _, hend,
    (), require_eq_ok.mpr (beq_self_eq_true _), _, hbody20, (), ?_, _, checkedAdd_ok (by omega), ?_⟩
  · rw [hfresh]
    rfl
  · have hafter : cursor + 16 + (utf8 name).length + (payload.length + 40) =
        cursor + (frame name payload).length := by
      rw [frame_length]
      omega
    rw [hafter]
    rfl

/-! ## Whole archives -/

/-- The framed records of some rows. -/
def frames (rows : List (String × Bytes)) : Bytes := rows.flatMap fun row => frame row.1 row.2

/-- Rows that may follow the records so far. -/
structure Pending (result : TextMap Bytes) (rows : List (String × Bytes)) : Prop where
  sizes : ∀ name payload, (name, payload) ∈ rows → recordSizes[name]? = some payload.length
  names : (rows.map Prod.fst).Nodup
  fresh : ∀ name ∈ rows.map Prod.fst, result.contains name = false

theorem Pending.nil (result : TextMap Bytes) : Pending result [] where
  sizes := fun _ _ h => by cases h
  names := List.nodup_nil
  fresh := fun _ h => by cases h

theorem contains_insert_eq_false {name other : String} {payload : Bytes} :
    (result.insert name payload).contains other = false ↔
      name ≠ other ∧ result.contains other = false := by
  rw [Std.ExtTreeMap.contains_insert, Bool.or_eq_false_iff, beq_eq_false_iff_ne, Ne,
    Std.LawfulEqCmp.compare_eq_iff_eq]

theorem pending_cons {name : String} {payload : Bytes} {rows : List (String × Bytes)} :
    Pending result ((name, payload) :: rows) ↔
      recordSizes[name]? = some payload.length ∧ result.contains name = false ∧
        Pending (result.insert name payload) rows := by
  constructor
  · intro h
    have hnames := List.nodup_cons.mp h.names
    have hfresh := List.forall_mem_cons.mp h.fresh
    refine ⟨h.sizes name payload List.mem_cons_self, hfresh.1, ?_, hnames.2, ?_⟩
    · exact fun other bytes hrow => h.sizes other bytes (List.mem_cons_of_mem _ hrow)
    · intro other hother
      rw [contains_insert_eq_false]
      refine ⟨?_, hfresh.2 other hother⟩
      rintro rfl
      exact hnames.1 hother
  · intro ⟨hsize, hfresh, h⟩
    refine ⟨?_, ?_, ?_⟩
    · intro other bytes hrow
      rcases List.mem_cons.mp hrow with hrow | hrow
      · cases hrow
        exact hsize
      · exact h.sizes other bytes hrow
    · refine List.nodup_cons.mpr ⟨?_, h.names⟩
      intro hmem
      exact (contains_insert_eq_false.mp (h.fresh name hmem)).1 rfl
    · refine List.forall_mem_cons.mpr ⟨hfresh, ?_⟩
      intro other hother
      exact (contains_insert_eq_false.mp (h.fresh other hother)).2

theorem frame_pos (name : String) (payload : Bytes) : 0 < (frame name payload).length := by
  rw [frame_length]
  omega

theorem recordsLoop_of_lt (hlt : cursor < data.length) :
    recordsLoop data cursor result =
      recordAt data cursor result >>= fun after => recordsLoop data after.1 after.2 := by
  rw [recordsLoop, dif_pos hlt]
  split
  · next e hrecord =>
    rw [hrecord]
    rfl
  · next next result' hrecord =>
    rw [hrecord]
    rfl

/-- The loop accepts exactly the frames of rows that may follow. -/
theorem recordsLoop_eq_ok (hdata : data.length < 2 ^ 64) (hcursor : cursor ≤ data.length)
    {final : TextMap Bytes} :
    recordsLoop data cursor result = .ok final ↔
      ∃ rows, data.drop cursor = frames rows ∧ Pending result rows ∧
        final = insertAll result rows := by
  induction cursor, result using recordsLoop.induct data with
  | case1 cursor result hlt e hrecord =>
    rw [recordsLoop_of_lt hlt, hrecord]
    constructor
    · nofun
    · -- the first of the rows would have been accepted
      intro ⟨rows, hrows, hpending, _⟩
      cases rows with
      | nil => exact absurd (List.drop_eq_nil_iff.mp hrows) (by omega)
      | cons row rows =>
        obtain ⟨hsize, hfresh, -⟩ := pending_cons.mp hpending
        rw [recordAt_of_frame hdata hcursor hrows hsize hfresh] at hrecord
        cases hrecord
  | case2 cursor result hlt next result' hrecord ih =>
    rw [recordsLoop_of_lt hlt, hrecord]
    obtain ⟨name, payload, hdrop, hsize, hfresh, hnext, rfl⟩ := recordAt_framed hrecord
    have hwithin : next ≤ data.length := by
      have hlength := congrArg List.length hdrop
      have hpos := frame_pos name payload
      rw [List.length_append, List.length_drop, List.length_drop] at hlength
      omega
    show recordsLoop data next (result.insert name payload) = .ok final ↔ _
    rw [ih hwithin]
    constructor
    · intro ⟨rows, hrows, hpending, hfinal⟩
      refine ⟨(name, payload) :: rows, ?_, pending_cons.mpr ⟨hsize, hfresh, hpending⟩, hfinal⟩
      rw [hdrop, hrows]
      rfl
    · intro ⟨rows, hrows, hpending, hfinal⟩
      cases rows with
      | nil => exact absurd (List.drop_eq_nil_iff.mp hrows) (by omega)
      | cons row rows =>
        obtain ⟨hrowsize, hrowfresh, hrest⟩ := pending_cons.mp hpending
        -- the record that was read is the first row
        rw [recordAt_of_frame hdata hcursor hrows hrowsize hrowfresh, Except.ok.injEq,
          Prod.mk.injEq] at hrecord
        obtain ⟨hafter, hsame⟩ := hrecord
        rw [hsame] at hrest
        refine ⟨rows, ?_, hrest, ?_⟩
        · rw [← hafter]
          exact drop_next hrows
        · rw [← hsame]
          exact hfinal
  | case3 cursor result hge =>
    rw [recordsLoop, dif_neg hge, Except.ok.injEq]
    have hend : data.drop cursor = [] := List.drop_eq_nil_of_le (by omega)
    constructor
    · rintro rfl
      exact ⟨[], hend, Pending.nil result, rfl⟩
    · intro ⟨rows, hrows, _, hfinal⟩
      cases rows with
      | nil => exact hfinal.symm
      | cons row rows =>
        have hpos := frame_pos row.1 row.2
        rw [hend, frames, List.flatMap_cons] at hrows
        rw [(List.append_eq_nil_iff.mp hrows.symm).1] at hpos
        cases hpos

/-! ## Errors -/

/-- If the computation fails, then because of the archive. -/
def Refuses {α : Type} (x : Except Error α) : Prop := ∀ e, x = .error e → e = INVALID

theorem Refuses.bind {α β : Type} {x : Except Error α} {f : α → Except Error β} (hx : Refuses x)
    (hf : ∀ a, x = .ok a → Refuses (f a)) : Refuses (x >>= f) := by
  cases x with
  | error e =>
    intro e' he
    cases he
    exact hx e rfl
  | ok a => exact hf a rfl

theorem Refuses.ok {α : Type} (a : α) : Refuses (.ok a) := nofun

theorem Refuses.require (condition : Bool) : Refuses (require condition INVALID) := by
  cases condition with
  | true => exact Refuses.ok ()
  | false =>
    intro e he
    cases he
    rfl

theorem Refuses.slice (offset count : Nat) : Refuses (slice data offset count) := by
  intro e he
  unfold Neural.slice at he
  by_cases hbound : offset + count < 2 ^ 64 ∧ offset + count ≤ data.length
  · rw [if_pos hbound] at he
    cases he
  · rw [if_neg hbound] at he
    cases he
    rfl

theorem Refuses.u64At (offset : Nat) : Refuses (u64At data offset) :=
  (Refuses.slice offset 8).bind fun bytes _ => Refuses.ok (leNat bytes)

theorem Refuses.checkedAdd {a b : Nat} (h : a + b < 2 ^ 64) : Refuses (checkedAdd a b) := by
  rw [checkedAdd_ok h]
  exact Refuses.ok (a + b)

theorem Refuses.mapError {ε α : Type} (x : Except ε α) :
    Refuses (x.mapError fun _ => INVALID) := by
  intro e he
  obtain ⟨_, _, rfl⟩ := mapError_eq_error.mp he
  rfl

theorem slice_lt {offset count : Nat} {s : Bytes} (h : slice data offset count = .ok s) :
    offset + count < 2 ^ 64 := by
  by_contra hbound
  unfold slice at h
  rw [if_neg (fun hboth => hbound hboth.1)] at h
  cases h

theorem u64At_lt {offset n : Nat} (h : u64At data offset = .ok n) : offset + 8 < 2 ^ 64 := by
  obtain ⟨bytes, hbytes, -⟩ := bind_eq_ok.mp h
  exact slice_lt hbytes

/-- Every sum is taken after a slice that reaches as far. -/
theorem Refuses.recordAt (cursor : Nat) (result : TextMap Bytes) :
    Refuses (recordAt data cursor result) := by
  unfold Neural.recordAt
  refine (Refuses.u64At cursor).bind fun nameLen hnameLen => ?_
  have hcursor := u64At_lt hnameLen
  refine (Refuses.require _).bind fun _ _ => ?_
  refine (Refuses.checkedAdd hcursor).bind fun nameStart hnameStart => ?_
  rw [checkedAdd_eq_ok] at hnameStart
  refine (Refuses.slice nameStart nameLen).bind fun raw hraw => ?_
  have hname := slice_lt hraw
  refine (Refuses.require _).bind fun _ _ => (Refuses.mapError _).bind fun name _ => ?_
  refine (Refuses.checkedAdd hname).bind fun spanStart hspanStart => ?_
  rw [checkedAdd_eq_ok] at hspanStart
  refine (Refuses.u64At spanStart).bind fun span hspan => ?_
  have hstart := u64At_lt hspan
  refine (Refuses.checkedAdd (by omega)).bind fun first hfirst => ?_
  rw [checkedAdd_eq_ok] at hfirst
  refine (Refuses.checkedAdd (by omega)).bind fun start _ => ?_
  refine (Refuses.slice start span).bind fun body hbody => ?_
  have hnext := slice_lt hbody
  cases hsize : recordSizes[name]? with
  | none =>
    intro e he
    cases he
    rfl
  | some size =>
    obtain ⟨-, -, -, hsmall⟩ := recordSizes_plain hsize
    refine (Refuses.checkedAdd (by omega)).bind fun _ _ => (Refuses.require _).bind fun _ _ => ?_
    refine (Refuses.u64At 0).bind fun _ _ => (Refuses.require _).bind fun _ _ => ?_
    refine (Refuses.u64At 8).bind fun _ _ => (Refuses.require _).bind fun _ _ => ?_
    refine (Refuses.slice 16 4).bind fun _ _ => (Refuses.require _).bind fun _ _ => ?_
    refine (Refuses.checkedAdd (by omega)).bind fun tail _ => ?_
    refine (Refuses.slice tail 20).bind fun _ _ => (Refuses.require _).bind fun _ _ => ?_
    refine (Refuses.slice 20 size).bind fun _ _ => (Refuses.require _).bind fun _ _ => ?_
    exact (Refuses.checkedAdd hnext).bind fun _ _ => Refuses.ok _

theorem Refuses.recordsLoop (cursor : Nat) (result : TextMap Bytes) :
    Refuses (recordsLoop data cursor result) := by
  induction cursor, result using recordsLoop.induct data with
  | case1 cursor result hlt e hrecord =>
    rw [recordsLoop_of_lt hlt, hrecord]
    intro e' he
    cases he
    exact Refuses.recordAt cursor result e hrecord
  | case2 cursor result hlt next result' hrecord ih =>
    rw [recordsLoop_of_lt hlt, hrecord]
    exact ih
  | case3 cursor result hge =>
    rw [Neural.recordsLoop, dif_neg hge]
    exact Refuses.ok result

theorem Refuses.records (data : Bytes) : Refuses (records data) := by
  unfold Neural.records
  refine (Refuses.u64At 0).bind fun _ _ => (Refuses.require _).bind fun _ _ => ?_
  refine (Refuses.recordsLoop 8 ∅).bind fun result _ => ?_
  exact (Refuses.require _).bind fun _ _ => Refuses.ok result

/-! ## What an archive is -/

/-- The data is its own length and one framed record for each name of the table. -/
structure Framed (data : Bytes) (rows : List (String × Bytes)) : Prop where
  total : ∃ header, header.length = 8 ∧ leNat header = data.length ∧ data = header ++ frames rows
  names : (rows.map Prod.fst).Perm recordSizes.keys
  sizes : ∀ name payload, (name, payload) ∈ rows → recordSizes[name]? = some payload.length

/-- The records of some names, framed again. -/
def reframe (names : List String) (result : TextMap Bytes) : Bytes :=
  let body := names.flatMap fun name => frame name (result[name]?.getD [])
  leBytes 8 (8 + body.length) ++ body

theorem size_insertAll {β : Type} {rows : List (String × β)} (h : (rows.map Prod.fst).Nodup) :
    (insertAll (∅ : TextMap β) rows).size = rows.length := by
  rw [← Std.ExtTreeMap.length_toList]
  exact (toList_insertAll_perm h).length_eq

/-- Rows for some names of the table are rows for all of them as soon as there are as many. -/
theorem names_perm_iff {rows : List (String × Bytes)} (h : Pending ∅ rows) :
    (rows.map Prod.fst).Perm recordSizes.keys ↔
      (insertAll (∅ : TextMap Bytes) rows).size = recordSizes.size := by
  rw [size_insertAll h.names, ← Std.ExtTreeMap.length_keys, ← List.length_map Prod.fst]
  constructor
  · exact List.Perm.length_eq
  · intro hlength
    have hsub : rows.map Prod.fst ⊆ recordSizes.keys := by
      intro name hname
      obtain ⟨⟨_, payload⟩, hrow, rfl⟩ := List.mem_map.mp hname
      rw [Std.ExtTreeMap.mem_keys, Std.ExtTreeMap.mem_iff_isSome_getElem?, h.sizes _ payload hrow]
      rfl
    exact (h.names.subperm hsub).perm_of_length_le (Nat.le_of_eq hlength.symm)

theorem pending_empty {rows : List (String × Bytes)} :
    Pending ∅ rows ↔ (rows.map Prod.fst).Nodup ∧
      ∀ name payload, (name, payload) ∈ rows → recordSizes[name]? = some payload.length := by
  constructor
  · exact fun h => ⟨h.names, h.sizes⟩
  · exact fun h => ⟨h.2, h.1, fun name _ => Std.ExtTreeMap.contains_empty⟩

theorem Framed.pending {rows : List (String × Bytes)} (h : Framed data rows) : Pending ∅ rows :=
  pending_empty.mpr ⟨h.names.nodup_iff.mpr Std.ExtTreeMap.nodup_keys, h.sizes⟩

theorem Framed.header {rows : List (String × Bytes)} (h : Framed data rows) :
    data = leBytes 8 data.length ++ frames rows ∧ data.length < 2 ^ 64 := by
  obtain ⟨header, hheader, htotal, hdata⟩ := h.total
  have hbytes := leBytes_leNat header
  have hbound := leNat_lt header
  rw [hheader, htotal] at hbytes hbound
  rw [hbytes]
  exact ⟨hdata, hbound⟩

theorem records_eq_ok {final : TextMap Bytes} :
    records data = .ok final ↔ ∃ rows, Framed data rows ∧ final = insertAll ∅ rows := by
  unfold records
  simp only [bind_eq_ok, require_eq_ok, beq_iff_eq, pure_eq_ok]
  constructor
  · rintro ⟨total, htotal, _, hlength, result, hloop, _, hsize, hfinal⟩
    rw [hlength] at htotal
    obtain ⟨hdrop, hbound⟩ := u64At_eq_ok htotal
    rw [List.drop_zero, Nat.zero_add] at hdrop
    have hcursor : 8 ≤ data.length := by
      rw [hdrop, List.length_append, leBytes_length]
      omega
    obtain ⟨rows, hrows, hpending, hresult⟩ := (recordsLoop_eq_ok hbound hcursor).mp hloop
    rw [hrows] at hdrop
    rw [hresult, ← names_perm_iff hpending] at hsize
    refine ⟨rows, ⟨⟨leBytes 8 data.length, ?_, leNat_leBytes hbound, hdrop⟩, hsize, ?_⟩, ?_⟩
    · exact leBytes_length 8 data.length
    · exact hpending.sizes
    · rw [← hfinal, hresult]
  · rintro ⟨rows, h, hfinal⟩
    obtain ⟨hdata, hbound⟩ := h.header
    have hcursor : 8 ≤ data.length := by
      rw [hdata, List.length_append, leBytes_length]
      omega
    have hbody : data.drop 8 = frames rows := drop_next (show data.drop 0 = _ from hdata)
    have hloop : recordsLoop data 8 ∅ = .ok final :=
      (recordsLoop_eq_ok hbound hcursor).mpr ⟨rows, hbody, h.pending, hfinal⟩
    refine ⟨data.length, ?_, (), rfl, final, hloop, (), ?_, rfl⟩
    · exact u64At_of_drop hbound (Nat.zero_le _) (show data.drop 0 = _ from hdata) hbound
    · rw [hfinal]
      exact (names_perm_iff h.pending).mp h.names

/-- The records of framed rows are the rows. -/
theorem Framed.value {rows : List (String × Bytes)} (h : Framed data rows) (name : String)
    (payload : Bytes) : (insertAll (∅ : TextMap Bytes) rows)[name]? = some payload ↔
      (name, payload) ∈ rows := by
  rw [← Std.ExtTreeMap.mem_toList_iff_getElem?_eq_some]
  exact mem_toList_insertAll h.pending.names (name, payload)

theorem Framed.reframe {rows : List (String × Bytes)} (h : Framed data rows) :
    reframe (rows.map Prod.fst) (insertAll ∅ rows) = data := by
  have hbody : (rows.map Prod.fst).flatMap (fun name =>
      frame name ((insertAll (∅ : TextMap Bytes) rows)[name]?.getD [])) = frames rows := by
    rw [List.flatMap_map, frames]
    refine List.flatMap_congr fun row hrow => ?_
    rw [(h.value row.1 row.2).mpr hrow]
    rfl
  obtain ⟨hdata, -⟩ := h.header
  have hlength := congrArg List.length hdata
  rw [List.length_append, leBytes_length] at hlength
  unfold Neural.reframe
  rw [hbody]
  show leBytes 8 (8 + (frames rows).length) ++ frames rows = data
  rw [← hlength]
  exact hdata.symm

/-- An archive is accepted exactly if it is framed; its records are then the rows, and framed in
the same order they are the archive again.  There is no other failure. -/
theorem records_framed (data : Bytes) :
    ((∃ result, records data = .ok result) ↔ ∃ rows, Framed data rows) ∧
      (∀ result, records data = .ok result ↔ ∃ rows, Framed data rows ∧
        (∀ name payload, result[name]? = some payload ↔ (name, payload) ∈ rows) ∧
        reframe (rows.map Prod.fst) result = data) ∧
      ((∃ result, records data = .ok result) ∨ records data = .error INVALID) := by
  refine ⟨?_, ?_, ?_⟩
  · simp only [records_eq_ok]
    constructor
    · exact fun ⟨_, rows, h, _⟩ => ⟨rows, h⟩
    · exact fun ⟨rows, h⟩ => ⟨insertAll ∅ rows, rows, h, rfl⟩
  · intro result
    rw [records_eq_ok]
    constructor
    · rintro ⟨rows, h, rfl⟩
      exact ⟨rows, h, h.value, h.reframe⟩
    · intro ⟨rows, h, hvalue, _⟩
      refine ⟨rows, h, Std.ExtTreeMap.ext_getElem? fun name => Option.ext fun payload => ?_⟩
      rw [hvalue name payload, h.value name payload]
  · cases hresult : records data with
    | ok result => exact .inl ⟨result, rfl⟩
    | error e => exact .inr (congrArg Except.error (Refuses.records data e hresult))

end Flightdeck.Neural
