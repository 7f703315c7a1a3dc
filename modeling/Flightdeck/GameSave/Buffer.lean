import Flightdeck.GameSave.Packed

/-!
# The packed buffer

What the stores of `XodusGameSavePackBlobs` leave in the buffer, and that the game reads the same
blobs from it.
-/

namespace Flightdeck.GameSave

open Foundation

/-! ## The stores -/

/-- A place in the table that is padding of its entry. -/
def Padding (offset : Nat) : Prop := 12 ≤ offset % ENTRY ∧ offset % ENTRY < 16

/-- Where the names and the data of the blobs are. -/
def layout : Nat → List Blob → List (Nat × Nat)
  | _, [] => []
  | cursor, blob :: blobs =>
    (cursor, cursor + (blob.name.length + 1)) :: layout (cursor + blobSize blob) blobs

/-- The addresses of the buffer before its end do not wrap around. -/
theorem packFrom_cons {out i cursor : Nat} {blob : Blob} {blobs : List Blob}
    (before : out + ENTRY * (i + (blob :: blobs).length) ≤ cursor)
    (fits : cursor + payload (blob :: blobs) < 2 ^ 64) :
    packFrom out i cursor (blob :: blobs) =
      ⟨out + ENTRY * i, leBytes 8 cursor⟩ ::
      ⟨out + ENTRY * i + 8, leBytes 4 (blob.data.length % 2 ^ 32)⟩ ::
      ⟨cursor, blob.name ++ [0]⟩ ::
      ⟨out + ENTRY * i + 16, leBytes 8 (cursor + (blob.name.length + 1))⟩ ::
      ⟨cursor + (blob.name.length + 1), blob.data⟩ ::
      packFrom out (i + 1) (cursor + blobSize blob) blobs := by
  have sum : payload (blob :: blobs) = blobSize blob + payload blobs := List.sum_cons
  have small {n : Nat} (bound : n < 2 ^ 64) : wrap n = n := Nat.mod_eq_of_lt bound
  have entry : ENTRY = 24 := rfl
  rw [sum, blobSize] at fits
  rw [List.length_cons, entry] at before
  rw [packFrom, entry, SIZE_OFFSET, DATA_OFFSET, small (by omega), small (by omega),
    small (by omega), small (by omega), small (by omega), Nat.add_assoc cursor]
  rfl

/-- The addresses that are written: the table without its padding, and from the cursor on all of the
names and the data.  By induction on the blobs; the table stays before the cursor. -/
theorem mem_packFrom {out i cursor : Nat} {blobs : List Blob}
    (before : out + ENTRY * (i + blobs.length) ≤ cursor) (fits : cursor + payload blobs < 2 ^ 64)
    {a : Nat} : a ∈ cellsOf (packFrom out i cursor blobs) ↔
      (out + ENTRY * i ≤ a ∧ a < out + ENTRY * (i + blobs.length) ∧ ¬ Padding (a - out)) ∨
        cursor ≤ a ∧ a < cursor + payload blobs := by
  induction blobs generalizing i cursor with
  | nil =>
    have none : payload [] = 0 := rfl
    rw [none]
    constructor
    · intro there
      cases there
    · intro either
      rw [List.length_nil, Nat.add_zero] at either
      omega
  | cons blob blobs ih =>
    have sum : payload (blob :: blobs) = blobSize blob + payload blobs := List.sum_cons
    have entry : ENTRY = 24 := rfl
    have size : blobSize blob = blob.name.length + 1 + blob.data.length := rfl
    have later := @ih (i + 1) (cursor + blobSize blob)
      (by rw [List.length_cons] at before; rw [entry] at before ⊢; omega)
      (by rw [sum] at fits; omega)
    rw [packFrom_cons before fits, cellsOf, List.flatMap_cons, List.flatMap_cons, List.flatMap_cons,
      List.flatMap_cons, List.flatMap_cons]
    unfold cellsOf at later
    simp only [List.mem_append, Store.mem_cells, later, leBytes_length, List.length_append,
      List.length_singleton]
    unfold Padding
    rw [sum]
    rw [List.length_cons] at before ⊢
    rw [entry] at before ⊢
    omega

/-- No byte is written twice. -/
theorem nodup_packFrom {out i cursor : Nat} {blobs : List Blob}
    (before : out + ENTRY * (i + blobs.length) ≤ cursor)
    (fits : cursor + payload blobs < 2 ^ 64) : (cellsOf (packFrom out i cursor blobs)).Nodup := by
  induction blobs generalizing i cursor with
  | nil => exact List.nodup_nil
  | cons blob blobs ih =>
    have sum : payload (blob :: blobs) = blobSize blob + payload blobs := List.sum_cons
    have entry : ENTRY = 24 := rfl
    have size : blobSize blob = blob.name.length + 1 + blob.data.length := rfl
    have table : out + ENTRY * (i + 1 + blobs.length) ≤ cursor + blobSize blob := by
      rw [List.length_cons] at before
      rw [entry] at before ⊢
      omega
    have inside : cursor + blobSize blob + payload blobs < 2 ^ 64 := by
      rw [sum] at fits
      omega
    have apart {a : Nat}
        (there : a ∈ cellsOf (packFrom out (i + 1) (cursor + blobSize blob) blobs)) :
        (out + ENTRY * (i + 1) ≤ a ∧ a < cursor) ∨ cursor + blobSize blob ≤ a := by
      rw [mem_packFrom table inside] at there
      rw [List.length_cons] at before
      rw [entry] at before there ⊢
      omega
    rw [packFrom_cons before fits, cellsOf]
    rw [List.length_cons, entry] at before
    unfold cellsOf at apart ih
    simp only [List.flatMap_cons, List.nodup_append, List.mem_append, Store.mem_cells,
      leBytes_length, List.length_append, List.length_singleton, entry]
    rw [entry] at apart
    refine ⟨List.nodup_range', ⟨List.nodup_range', ⟨List.nodup_range', ⟨List.nodup_range',
      ⟨List.nodup_range', ih table inside, ?_⟩, ?_⟩, ?_⟩, ?_⟩, ?_⟩
    · intro a low b later same
      have := apart later
      omega
    all_goals
      intro a low b high same
      by_cases later : b ∈ (packFrom out (i + 1) (cursor + blobSize blob) blobs).flatMap Store.cells
      · have := apart later
        omega
      · simp only [later, or_false] at high
        omega

theorem length_packFrom (out i cursor : Nat) (blobs : List Blob) :
    (cellsOf (packFrom out i cursor blobs)).length = 20 * blobs.length + payload blobs := by
  induction blobs generalizing i cursor with
  | nil => rfl
  | cons blob blobs ih =>
    have sum : payload (blob :: blobs) = blobSize blob + payload blobs := List.sum_cons
    have later := ih (i + 1) (wrap (wrap (cursor + (blob.name.length + 1)) + blob.data.length))
    rw [length_cellsOf] at later ⊢
    rw [packFrom, sum, blobSize]
    simp only [List.map_cons, List.sum_cons, leBytes_length, List.length_append, later,
      List.length_cons, List.length_nil]
    omega

/-! ## Reading the table -/

/-- What is found in an entry of the table, and behind its pointers. -/
structure EntryHolds (memory : Memory) (entry : Nat) (blob : Blob) (name data : Nat) : Prop where
  named : loadNat memory entry 8 = name
  size : loadNat memory (entry + SIZE_OFFSET) 4 = blob.data.length
  pointed : loadNat memory (entry + DATA_OFFSET) 8 = data
  text : CString memory name blob.name
  bytes : load memory data blob.data.length = blob.data

/-- The entries from one on are those of the blobs, with these pointers. -/
def TableHolds (memory : Memory) (out : Nat) : Nat → List Blob → List (Nat × Nat) → Prop
  | _, [], [] => True
  | i, blob :: blobs, (name, data) :: pointers =>
    EntryHolds memory (out + ENTRY * i) blob name data ∧
      TableHolds memory out (i + 1) blobs pointers
  | _, _, _ => False

theorem tableHolds_layout {memory : Memory} {out i cursor : Nat} {blobs : List Blob}
    (before : out + ENTRY * (i + blobs.length) ≤ cursor) (fits : cursor + payload blobs < 2 ^ 64)
    (packable : ∀ blob ∈ blobs, Packable blob)
    (stored : ∀ s ∈ packFrom out i cursor blobs, load memory s.address s.bytes.length = s.bytes) :
    TableHolds memory out i blobs (layout cursor blobs) := by
  induction blobs generalizing i cursor with
  | nil => trivial
  | cons blob blobs ih =>
    have sum : payload (blob :: blobs) = blobSize blob + payload blobs := List.sum_cons
    have entry : ENTRY = 24 := rfl
    have size : blobSize blob = blob.name.length + 1 + blob.data.length := rfl
    have ⟨first, later⟩ := List.forall_mem_cons.mp packable
    have word : (256 : Nat) ^ 8 = 2 ^ 64 := by decide
    have limit : UINT32_MAX < 2 ^ 32 := by decide
    have short : blob.data.length % 2 ^ 32 = blob.data.length :=
      Nat.mod_eq_of_lt (Nat.lt_of_le_of_lt first.2 limit)
    rw [packFrom_cons before fits] at stored
    simp only [List.forall_mem_cons, leBytes_length, List.length_append,
      List.length_singleton] at stored
    have ⟨name, length, text, data, bytes, rest⟩ := stored
    refine ⟨⟨?_, ?_, ?_, ⟨first.1, text⟩, bytes⟩, ih ?_ ?_ later rest⟩
    · rw [loadNat, name, leNat_leBytes (by omega)]
    · rw [loadNat, SIZE_OFFSET, length, leNat_leBytes, short]
      exact Nat.mod_lt _ (by decide)
    · rw [loadNat, DATA_OFFSET, data, leNat_leBytes (by omega)]
    · rw [List.length_cons] at before
      rw [entry] at before ⊢
      omega
    · rw [sum] at fits
      omega

/-! ## The parts of the buffer -/

structure Region where
  start : Nat
  size : Nat

/-- One ends before the other begins. -/
def Region.Apart (r s : Region) : Prop :=
  r.start + r.size ≤ s.start ∨ s.start + s.size ≤ r.start

def Region.Within (r whole : Region) : Prop :=
  whole.start ≤ r.start ∧ r.start + r.size ≤ whole.start + whole.size

/-- The names with their terminators, and the data. -/
def contents (blobs : List Blob) (pointers : List (Nat × Nat)) : List Region :=
  (blobs.zip pointers).flatMap fun (blob, name, data) =>
    [⟨name, blob.name.length + 1⟩, ⟨data, blob.data.length⟩]

/-- The table, the names and the data. -/
def regions (out : Nat) (blobs : List Blob) (pointers : List (Nat × Nat)) : List Region :=
  ⟨out, ENTRY * blobs.length⟩ :: contents blobs pointers

theorem contents_layout (cursor : Nat) (blobs : List Blob) :
    (contents blobs (layout cursor blobs)).Pairwise Region.Apart ∧
      (∀ r ∈ contents blobs (layout cursor blobs), r.Within ⟨cursor, payload blobs⟩) ∧
      ((contents blobs (layout cursor blobs)).map Region.size).sum = payload blobs := by
  induction blobs generalizing cursor with
  | nil => exact ⟨List.Pairwise.nil, by nofun, rfl⟩
  | cons blob blobs ih =>
    have sum : payload (blob :: blobs) = blobSize blob + payload blobs := List.sum_cons
    have size : blobSize blob = blob.name.length + 1 + blob.data.length := rfl
    have ⟨apart, within, sizes⟩ := ih (cursor + blobSize blob)
    have parts : contents (blob :: blobs) (layout cursor (blob :: blobs)) =
        ⟨cursor, blob.name.length + 1⟩ ::
        ⟨cursor + (blob.name.length + 1), blob.data.length⟩ ::
        contents blobs (layout (cursor + blobSize blob) blobs) := rfl
    rw [parts, sum]
    unfold Region.Within at within ⊢
    dsimp only at within
    refine ⟨?_, ?_, ?_⟩
    · rw [List.pairwise_cons, List.pairwise_cons]
      refine ⟨?_, ?_, apart⟩
      · intro r there
        apply Or.inl
        rcases List.mem_cons.mp there with rfl | there
        · exact Nat.le_refl _
        · have := within r there
          show cursor + (blob.name.length + 1) ≤ r.start
          omega
      · intro r there
        apply Or.inl
        have := within r there
        show cursor + (blob.name.length + 1) + blob.data.length ≤ r.start
        omega
    · intro r there
      dsimp only
      rcases List.mem_cons.mp there with rfl | there
      · dsimp only
        omega
      · rcases List.mem_cons.mp there with rfl | there
        · dsimp only
          omega
        · have := within r there
          omega
    · rw [List.map_cons, List.sum_cons, List.map_cons, List.sum_cons, sizes]
      dsimp only
      omega

/-! ## A call -/

/-- A buffer of the caller: one past its end is still an address. -/
structure Buffer where
  address : Nat
  capacity : Nat
  notNull : address ≠ 0
  aligned : address % ALIGN = 0
  fits : address + capacity < 2 ^ 64

def packInto (blobs : List Blob) (buffer : Buffer) : Packed :=
  packBlobs blobs buffer.capacity buffer.address true

theorem packInto_eq {blobs : List Blob} {buffer : Buffer} {n : Nat}
    (size : packedBlobSize blobs = .ok n) (room : n ≤ buffer.capacity) :
    packInto blobs buffer = ⟨S_OK, some blobs.length,
      packFrom buffer.address 0 (buffer.address + ENTRY * blobs.length) blobs⟩ := by
  have ⟨short, _, _, same⟩ := packedBlobSize_eq_ok.mp size
  have limit : UINT32_MAX < 2 ^ 32 := by decide
  have fits := buffer.fits
  have table : ENTRY * blobs.length ≤ n := by
    rw [same]
    exact Nat.le_add_right _ _
  have count : blobs.length % 2 ^ 32 = blobs.length := Nat.mod_eq_of_lt (by omega)
  have start : wrap (buffer.address + blobs.length * ENTRY) =
      buffer.address + ENTRY * blobs.length := by
    rw [Nat.mul_comm, wrap, Nat.mod_eq_of_lt (by omega)]
  unfold packInto packBlobs
  rw [size]
  dsimp only
  rw [if_neg (by decide), if_neg (by omega), if_neg fun h => buffer.notNull h.2,
    if_neg fun h => h.2 buffer.aligned, count, start]
  by_cases empty : n = 0
  · have none : blobs = [] := by
      cases blobs with
      | nil => rfl
      | cons blob rest =>
        rw [List.length_cons, ENTRY] at table
        omega
    rw [if_pos empty, none]
    rfl
  · rw [if_neg empty]

theorem require_fails {condition : Bool} {e : HResult} (bad : e ≠ S_OK) :
    Outcome (require condition e) (fun _ => True) (· ≠ S_OK) := by
  cases condition with
  | true => trivial
  | false => exact bad

/-- An error of the size is no success. -/
theorem packedBlobSize_fails (blobs : List Blob) :
    Outcome (packedBlobSize blobs) (fun _ => True) (· ≠ S_OK) := by
  apply Outcome.bind (require_fails (by decide))
  intro _ _
  apply Outcome.foldlM _ _ trivial
  intro size blob _
  apply Outcome.bind (require_fails (by decide))
  intro _ _
  apply Outcome.bind (require_fails (by decide))
  intro _ _
  apply Outcome.bind (require_fails (by decide))
  intro _ _
  trivial

/-- A call that does not succeed writes nothing, and reports no blobs. -/
theorem packInto_failed {blobs : List Blob} {buffer : Buffer}
    (tight : ∀ n, packedBlobSize blobs = .ok n → ¬ n ≤ buffer.capacity) :
    (packInto blobs buffer).hr ≠ S_OK ∧ (packInto blobs buffer).count = some 0 ∧
      (packInto blobs buffer).stores = [] := by
  have fails := packedBlobSize_fails blobs
  unfold packInto packBlobs
  cases size : packedBlobSize blobs with
  | error hr =>
    rw [size] at fails
    exact ⟨fails, rfl, rfl⟩
  | ok n =>
    have small : buffer.capacity < n := Nat.lt_of_not_le (tight n size)
    dsimp only
    rw [if_neg (by decide), if_pos small]
    exact ⟨by decide, rfl, rfl⟩

section

variable {blobs : List Blob} {buffer : Buffer}

/-- Where the buffer has room, the names and the data end in it. -/
theorem content_fits (room : total blobs ≤ buffer.capacity) :
    buffer.address + ENTRY * blobs.length + payload blobs < 2 ^ 64 := by
  have fits := buffer.fits
  unfold total at room
  omega

theorem table_before : buffer.address + ENTRY * (0 + blobs.length) ≤
    buffer.address + ENTRY * blobs.length := by
  rw [Nat.zero_add]

/-- The bytes that are written. -/
theorem written_iff (room : total blobs ≤ buffer.capacity) {a : Nat} :
    a ∈ cellsOf (packFrom buffer.address 0 (buffer.address + ENTRY * blobs.length) blobs) ↔
      buffer.address ≤ a ∧ a < buffer.address + total blobs ∧
        ¬ (a < buffer.address + ENTRY * blobs.length ∧ Padding (a - buffer.address)) := by
  rw [mem_packFrom table_before (content_fits room), Nat.zero_add, Nat.mul_zero, Nat.add_zero,
    total]
  by_cases padding : Padding (a - buffer.address)
  · simp only [padding, not_true_eq_false, and_false, false_or, and_true]
    omega
  · simp only [padding, not_false_eq_true, and_false, and_true]
    omega

theorem regions_layout (out : Nat) (blobs : List Blob) :
    (regions out blobs (layout (out + ENTRY * blobs.length) blobs)).Pairwise Region.Apart ∧
      (∀ r ∈ regions out blobs (layout (out + ENTRY * blobs.length) blobs),
        r.Within ⟨out, total blobs⟩) ∧
      ((regions out blobs (layout (out + ENTRY * blobs.length) blobs)).map Region.size).sum =
        total blobs := by
  have ⟨apart, within, sizes⟩ := contents_layout (out + ENTRY * blobs.length) blobs
  unfold regions total
  unfold Region.Within at within ⊢
  dsimp only at within ⊢
  refine ⟨?_, ?_, ?_⟩
  · rw [List.pairwise_cons]
    exact ⟨fun r there => .inl (within r there).1, apart⟩
  · intro r there
    rcases List.mem_cons.mp there with rfl | there
    · dsimp only
      omega
    · have := within r there
      omega
  · rw [List.map_cons, List.sum_cons, sizes]

/-- What the table leads to. -/
theorem table_read {n : Nat} (size : packedBlobSize blobs = .ok n) (room : n ≤ buffer.capacity)
    (memory : Memory) :
    TableHolds (storeAll memory (packFrom buffer.address 0
        (buffer.address + ENTRY * blobs.length) blobs)) buffer.address 0 blobs
      (layout (buffer.address + ENTRY * blobs.length) blobs) := by
  have ⟨_, packable, _, same⟩ := packedBlobSize_eq_ok.mp size
  rw [same] at room
  have distinct := nodup_packFrom (i := 0) table_before (content_fits room)
  apply tableHolds_layout table_before (content_fits room) packable
  exact fun s there => load_storeAll distinct there memory

end

/-- The size is that of the table, the names with their terminators and the data.  A call succeeds
where the size is defined and the buffer has room for it.  It then writes every byte of that size
once but for the padding of the entries, and nothing else; the table, the names and the data lie
apart and fill the size; and the table leads to the names and the data of the blobs, in their order.
A call that fails writes nothing and reports no blobs. -/
theorem blobs_packed (blobs : List Blob) (buffer : Buffer) (memory : Memory) :
    (∀ n, packedBlobSize blobs = .ok n → n = total blobs ∧ n ≤ SIZE_MAX) ∧
    ((packInto blobs buffer).hr = S_OK ↔
      ∃ n, packedBlobSize blobs = .ok n ∧ n ≤ buffer.capacity) ∧
    ((packInto blobs buffer).hr = S_OK →
      (packInto blobs buffer).count = some blobs.length ∧
      (∀ a, a ∈ cellsOf (packInto blobs buffer).stores ↔
        buffer.address ≤ a ∧ a < buffer.address + total blobs ∧
          ¬ (a < buffer.address + ENTRY * blobs.length ∧ Padding (a - buffer.address))) ∧
      (cellsOf (packInto blobs buffer).stores).Nodup ∧
      (cellsOf (packInto blobs buffer).stores).length + 4 * blobs.length = total blobs ∧
      total blobs ≤ buffer.capacity ∧
      ∃ pointers,
        TableHolds (storeAll memory (packInto blobs buffer).stores) buffer.address 0 blobs
          pointers ∧
        (regions buffer.address blobs pointers).Pairwise Region.Apart ∧
        (∀ r ∈ regions buffer.address blobs pointers,
          r.Within ⟨buffer.address, total blobs⟩) ∧
        ((regions buffer.address blobs pointers).map Region.size).sum = total blobs) ∧
    ((packInto blobs buffer).hr ≠ S_OK →
      (packInto blobs buffer).count = some 0 ∧ (packInto blobs buffer).stores = []) := by
  have succeeds : (packInto blobs buffer).hr = S_OK ↔
      ∃ n, packedBlobSize blobs = .ok n ∧ n ≤ buffer.capacity := by
    constructor
    · intro done
      by_contra none
      exact (packInto_failed fun n size room => none ⟨n, size, room⟩).1 done
    · intro ⟨n, size, room⟩
      rw [packInto_eq size room]
  refine ⟨?_, succeeds, ?_, ?_⟩
  · intro n size
    have ⟨_, _, bound, same⟩ := packedBlobSize_eq_ok.mp size
    exact ⟨same, same ▸ bound⟩
  · intro done
    have ⟨n, size, room⟩ := succeeds.mp done
    have fits : total blobs ≤ buffer.capacity := (packedBlobSize_eq_ok.mp size).2.2.2 ▸ room
    have length := length_packFrom buffer.address 0 (buffer.address + ENTRY * blobs.length) blobs
    have ⟨apart, within, sizes⟩ := regions_layout buffer.address blobs
    rw [packInto_eq size room]
    refine ⟨rfl, fun a => written_iff fits, nodup_packFrom table_before (content_fits fits), ?_,
      fits, _, table_read size room memory, apart, within, sizes⟩
    dsimp only
    rw [length, total, ENTRY]
    omega
  · intro failed
    have ⟨_, count, stores⟩ := packInto_failed fun n size room =>
      failed (succeeds.mpr ⟨n, size, room⟩)
    exact ⟨count, stores⟩

/-! ## The padding -/

/-- Four of the bytes that the size counts are never written. -/
theorem padding_unwritten : ∃ blobs buffer n,
    packedBlobSize blobs = .ok n ∧ (packInto blobs buffer).hr = S_OK ∧
      (cellsOf (packInto blobs buffer).stores).length ≠ n :=
  ⟨[⟨[97], []⟩], ⟨4096, 64, by decide, by decide, by decide⟩, 26, by decide, by decide, by decide⟩

end Flightdeck.GameSave
