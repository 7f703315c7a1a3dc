import Flightdeck.GameSave.LocalFormat

/-!
# Two readers of one format

The native provider and the launcher accept the same names, the same files and write the same bytes.
-/

namespace Flightdeck.GameSave.LocalSave

open Foundation SaveState

/-! ## Names -/

theorem findLastOf_eq_none {c : UInt8} {s : Bytes} (free : c ∉ s) : findLastOf c s = none := by
  induction s with
  | nil => rfl
  | cons b s ih =>
    rw [List.mem_cons, not_or] at free
    rw [findLastOf, ih free.2]
    exact if_neg (by simpa using Ne.symm free.1)

theorem findLastOf_append {c : UInt8} {s : Bytes} (free : c ∉ s) (before : Bytes) :
    findLastOf c (before ++ c :: s) = some before.length := by
  induction before with
  | nil =>
    rw [List.nil_append, findLastOf, findLastOf_eq_none free]
    exact if_pos (beq_self_eq_true c)
  | cons b before ih => rw [List.cons_append, findLastOf, ih, List.length_cons]

/-- The last part of a name, and any part. -/
def Last (part : Bytes) : Prop := part ≠ [] ∧ part.all (fun c => asciiBase c || c == 46 || c == 45)
def Parent (part : Bytes) : Prop := part ≠ [] ∧ part.all asciiBase

theorem nameParts_append {container : Bool} {parents : List Bytes} {part : Bytes} :
    nameParts container (parents ++ [part]) = .ok () ↔
      (∀ parent ∈ parents, Parent parent) ∧ (parents ≠ [] → container = true) ∧ Last part := by
  induction parents with
  | nil =>
    simp [nameParts, Last, bind_eq_ok, asciiBase, Bool.or_assoc]
  | cons parent parents ih =>
    have more : (parents ++ [part]).isEmpty = false := by simp
    -- a part with others after it is for containers only, and has no dots
    simp only [List.cons_append, nameParts, bind_eq_ok, require_eq_ok, ih, more, Parent,
      List.forall_mem_cons, Bool.not_false, Bool.not_true, Bool.false_or, Bool.false_and,
      Bool.or_false, Bool.not_eq_true', List.isEmpty_eq_false_iff]
    constructor
    · rintro ⟨-, there, -, named, -, base, parents, -, last⟩
      exact ⟨⟨⟨there, base⟩, parents⟩, fun _ => named, last⟩
    · rintro ⟨⟨⟨there, base⟩, parents⟩, named, last⟩
      have named := named (List.cons_ne_nil _ _)
      exact ⟨(), there, (), named, (), base, parents, fun _ => named, last⟩

theorem doubled_cons {b : UInt8} {s : Bytes} : [47, 47] <:+: b :: s ↔
    (b = 47 ∧ s.head? = some 47) ∨ [47, 47] <:+: s := by
  rw [List.infix_cons_iff, List.cons_prefix_cons]
  cases s with
  | nil => simp
  | cons c s => simp [List.cons_prefix_cons, eq_comm]

/-- The parts before the last slash, by the characters of the name. -/
theorem parents_splitOn (s : Bytes) :
    (∀ parent ∈ s.splitOn 47, Parent parent) ↔ s.all (fun c => asciiBase c || c == 47) ∧
      (s ++ [47]).head? ≠ some 47 ∧ ¬ [47, 47] <:+: s ++ [47] := by
  -- Inside the induction the first part may still be empty: it is one that goes on.
  have going : ∃ h t, s.splitOn 47 = h :: t ∧ (h = [] ↔ (s ++ [47]).head? = some 47) ∧
      ((h.all asciiBase ∧ ∀ parent ∈ t, Parent parent) ↔
        s.all (fun c => asciiBase c || c == 47) ∧ ¬ [47, 47] <:+: s ++ [47]) := by
    induction s with
    | nil => exact ⟨[], [], rfl, by simp, by simp [doubled_cons]⟩
    | cons b s ih =>
      obtain ⟨h, t, split, empty, all⟩ := ih
      rw [List.splitOn_cons_eq_if_modifyHead, split]
      by_cases slash : b = 47
      · -- a slash: the first part is empty, and the one that went on is among the others
        subst slash
        refine ⟨[], h :: t, rfl, by simp, ?_⟩
        rw [List.forall_mem_cons, Parent, List.cons_append, doubled_cons, ← empty]
        simp only [List.all_nil, List.all_cons, beq_self_eq_true, Bool.or_true, Bool.true_and]
        tauto
      · refine ⟨b :: h, t, if_neg (by simpa using slash), by simp [slash], ?_⟩
        rw [List.cons_append, doubled_cons, List.all_cons, List.all_cons, Bool.and_eq_true,
          and_assoc, all, beq_eq_false_iff_ne.mpr slash, Bool.or_false, Bool.and_eq_true]
        tauto
  obtain ⟨h, t, split, empty, all⟩ := going
  rw [split, List.forall_mem_cons, Parent]
  simp only [ne_eq, empty]
  tauto

/-- The loop over the characters, with the last slash known. -/
theorem loop_slash (before after : Bytes) :
    ((before ++ 47 :: after).zipIdx.all fun x =>
      if (some before.length).any (x.2 ≤ ·) then asciiBase x.1 || x.1 == 47
      else asciiBase x.1 || x.1 == 46 || x.1 == 45) =
    (before.all (fun c => asciiBase c || c == 47) &&
      after.all fun c => asciiBase c || c == 46 || c == 45) := by
  -- Up to the slash every character is asked the first question, after it the second.
  have low {n : Nat} {s : Bytes} (small : n + s.length ≤ before.length + 1) :
      ((s.zipIdx n).all fun x =>
        if (some before.length).any (x.2 ≤ ·) then asciiBase x.1 || x.1 == 47
        else asciiBase x.1 || x.1 == 46 || x.1 == 45) = s.all fun c => asciiBase c || c == 47 := by
    induction s generalizing n with
    | nil => rfl
    | cons b s ih =>
      rw [List.length_cons] at small
      rw [List.zipIdx_cons, List.all_cons, List.all_cons, ih (by omega)]
      simp [show n ≤ before.length by omega]
  have high {n : Nat} {s : Bytes} (large : before.length < n) :
      ((s.zipIdx n).all fun x =>
        if (some before.length).any (x.2 ≤ ·) then asciiBase x.1 || x.1 == 47
        else asciiBase x.1 || x.1 == 46 || x.1 == 45) =
      s.all fun c => asciiBase c || c == 46 || c == 45 := by
    induction s generalizing n with
    | nil => rfl
    | cons b s ih =>
      rw [List.zipIdx_cons, List.all_cons, List.all_cons, ih (by omega)]
      simp [show ¬ n ≤ before.length by omega]
  rw [List.zipIdx_append, List.all_append, low (by omega), List.zipIdx_cons, List.all_cons,
    high (by omega)]
  simp

theorem loop_plain (s : Bytes) (n : Nat) :
    ((s.zipIdx n).all fun x => if (none : Option Nat).any (x.2 ≤ ·) then asciiBase x.1 || x.1 == 47
      else asciiBase x.1 || x.1 == 46 || x.1 == 45) =
    s.all fun c => asciiBase c || c == 46 || c == 45 := by
  induction s generalizing n with
  | nil => rfl
  | cons b s ih =>
    rw [List.zipIdx_cons, List.all_cons, List.all_cons, ih]
    rfl

theorem head?_before (before after : Bytes) :
    (before ++ 47 :: after).head? = (before ++ [47]).head? := by
  cases before <;> rfl

theorem doubled_before {after : Bytes} (free : 47 ∉ after) (before : Bytes) :
    [47, 47] <:+: before ++ 47 :: after ↔ [47, 47] <:+: before ++ [47] := by
  induction before with
  | nil =>
    have first : after.head? ≠ some 47 := fun same => free (List.mem_of_head? same)
    have rest : ¬ [47, 47] <:+: after := fun inside => free (inside.subset List.mem_cons_self)
    simp [doubled_cons, first, rest]
  | cons b before ih =>
    rw [List.cons_append, List.cons_append, doubled_cons, doubled_cons, ih, head?_before]

/-- A name with a slash: the provider looks at its characters, the launcher at its parts. -/
theorem validParts_iff {after : Bytes} (free : 47 ∉ after) (before : Bytes) :
    (before.all (fun c => asciiBase c || c == 47) &&
        after.all fun c => asciiBase c || c == 46 || c == 45) = true ∧
      (before ++ 47 :: after).head? ≠ some 47 ∧ after ≠ [] ∧
      ¬ [47, 47] <:+: before ++ 47 :: after ↔
    nameParts true ((before ++ 47 :: after).splitOn 47) = .ok () := by
  rw [List.splitOn_append_cons_self, List.splitOn_eq_singleton free, nameParts_append,
    parents_splitOn, head?_before, doubled_before free, Bool.and_eq_true, Last]
  tauto

theorem parts_false {x : Bytes} (slash : 47 ∈ x) :
    (x.all fun c => asciiBase c || c == 46 || c == 45) = false ∧
      nameParts false (x.splitOn 47) ≠ .ok () := by
  obtain ⟨before, after, rfl⟩ := List.append_of_mem slash
  constructor
  · simp [show asciiBase 47 = false from by decide]
  · rw [List.splitOn_append_cons_self]
    intro named
    -- there is a part before the last one, which only a container may have
    obtain ⟨parts, part, same⟩ := List.eq_nil_or_concat' (after.splitOn 47) |>.resolve_left
      (List.splitOn_ne_nil 47 after)
    rw [same, ← List.append_assoc, nameParts_append] at named
    exact Bool.false_ne_true (named.2.1 (by simp [List.splitOn_ne_nil]))

/-- Both grammars of names are one. -/
theorem validName_eq_true {s : String} {container : Bool} :
    validName (utf8 s) container = true ↔ name s container = .ok () := by
  simp only [validName, name, bind_eq_ok, require_eq_ok, exists_const]
  generalize utf8 s = x
  -- The first line of both checks is the same.
  have guard : (x.isEmpty || decide (256 < x.length) || x.getLast? == some 46 ||
      decide ([46, 46] <:+: x)) = !(!x.isEmpty && decide (x.length ≤ 256) &&
        !decide ([46, 46] <:+: x) && x.getLast? != some 46) := by
    simp only [bne, Bool.not_and, Bool.not_not, ← decide_not, Nat.not_le]
    rw [Bool.or_right_comm, decide_not, decide_not, Bool.not_not]
  rw [guard]
  cases good : (!x.isEmpty && decide (x.length ≤ 256) && !decide ([46, 46] <:+: x) &&
      x.getLast? != some 46) with
  | false => simp
  | true =>
    rw [Bool.not_true, if_neg Bool.false_ne_true]
    by_cases slash : 47 ∈ x
    · cases container with
      | false =>
        obtain ⟨chars, parts⟩ := parts_false slash
        simp only [Bool.false_eq_true, if_false, Option.isSome_none, Bool.false_and, loop_plain,
          chars, parts, and_false]
      | true =>
        -- the name is cut at its last slash, the first one from the end
        obtain ⟨after, before, same, free⟩ :=
          List.eq_append_cons_of_mem (List.mem_reverse.mpr slash)
        have shape : x = before.reverse ++ 47 :: after.reverse := by
          rw [← List.reverse_reverse x, same]
          simp
        rw [← List.mem_reverse] at free
        generalize before.reverse = before at shape
        generalize after.reverse = after at shape free
        have last : (some before.length == some (x.length - 1)) = after.isEmpty := by
          rw [shape]
          cases after <;> simp
        have parts := validParts_iff free before
        rw [if_pos rfl, shape, findLastOf_append free, ← shape, last, shape, loop_slash]
        rw [← parts, Option.isSome_some, Bool.true_and]
        by_cases head : (before ++ 47 :: after).head? = some 47
        · simp [head]
        by_cases double : [47, 47] <:+: before ++ 47 :: after
        · simp [double]
        cases after <;> simp [double]
        tauto
    · -- without a slash the name is its own last part
      have none : (if container = true then findLastOf 47 x else none) = none := by
        rw [findLastOf_eq_none slash, ite_self]
      have there : x ≠ [] := by
        rintro rfl
        cases good
      rw [none, List.splitOn_eq_singleton slash]
      simp only [Option.isSome_none, Bool.false_and, Bool.false_eq_true, if_false, loop_plain]
      rw [← List.nil_append [x], nameParts_append]
      simp [Last, there]

/-! ## Reading -/

theorem accepts_native {α : Type} {r : SaveState.Reader α} {R : α → Bytes → Prop}
    (accepts : Accepts r R) : Accepts (native r) R := by
  intro c a c'
  rw [← accepts c a c']
  exact mapError_eq_ok

theorem utf8Text_eq_ok {x : Bytes} {s : String} : utf8Text x = .ok s ↔ x = utf8 s :=
  mapError_eq_ok.trans fromUtf8_eq_ok

theorem accepts_utf8Text (x : Bytes) :
    Accepts (liftM (utf8Text x) : Reader String) fun s bs => x = utf8 s ∧ bs = [] := by
  have run : (liftM (utf8Text x) : Reader String) = liftM (utf8Text x) >>= pure :=
    (bind_pure _).symm
  rw [run]
  refine (Accepts.lift fun s => Accepts.pure s).congr fun s bs => ?_
  simp only [utf8Text_eq_ok]
  constructor
  · rintro ⟨s', same, rfl, empty⟩
    exact ⟨same, empty⟩
  · exact fun both => ⟨s, both.1, rfl, both.2⟩

theorem accepts_text {max : Nat} (small : max < 2 ^ 32) : Accepts (text max) fun x bs =>
    x.length ≤ max ∧ 0 ∉ x ∧ bs = leBytes 4 x.length ++ x := by
  refine ((accepts_native accepts_readU32).bind fun n => Accepts.lift fun _ =>
    (accepts_native (accepts_take n.toNat)).bind fun x => Accepts.lift fun _ =>
    Accepts.pure x).congr fun x bs => ?_
  simp only [require_eq_ok, decide_eq_true_eq, Bool.not_eq_true', List.contains_eq_mem,
    decide_eq_false_iff_not]
  constructor
  · rintro ⟨n, _, _, rfl, rfl, -, low, x', _, _, ⟨length, rfl⟩, rfl, -, free, rfl, rfl⟩
    rw [← length] at low ⊢
    exact ⟨low, free, by rw [List.append_nil]⟩
  · rintro ⟨low, free, rfl⟩
    obtain ⟨n, same⟩ := exists_u32_eq small low
    refine ⟨n, _, x, rfl, by rw [same], (), same ▸ low, x, _, [], ⟨same.symm, rfl⟩, ?_, (), free,
      rfl, rfl⟩
    rw [List.append_nil]

theorem accepts_readName (container : Bool) : Accepts (readName container) fun s bs =>
    TextOk 256 s ∧ name s container = .ok () ∧ bs = textLayout s := by
  have small : 256 < 2 ^ 32 := by decide
  refine ((accepts_text small).bind fun x => Accepts.lift fun _ =>
    accepts_utf8Text x).congr fun s bs => ?_
  simp only [require_eq_ok]
  constructor
  · rintro ⟨x, _, _, ⟨low, free, rfl⟩, rfl, -, valid, rfl, rfl⟩
    exact ⟨⟨low, free⟩, validName_eq_true.mp valid, List.append_nil _⟩
  · rintro ⟨⟨low, free⟩, valid, rfl⟩
    exact ⟨utf8 s, _, [], ⟨low, free, rfl⟩, (List.append_nil _).symm, (),
      validName_eq_true.mpr valid, rfl, rfl⟩

/-- What one turn of the loop over the blobs checks. -/
structure BlobFits (quota : Nat) (b : Container × Nat) (blob : String × Bytes) : Prop where
  name : BlobNameOk blob.1
  fresh : blob.1 ∉ b.1.blobs
  fits : blob.2.length ≤ quota - b.2

theorem accepts_readBlob {quota : Nat} (small : quota ≤ QUOTA) (b : Container × Nat) :
    Accepts (readBlob quota b) fun b' bs =>
      ∃ blob, BlobFits quota b blob ∧ b' = nextBlob b blob ∧ bs = blobLayout blob := by
  obtain ⟨c, used⟩ := b
  refine ((accepts_readName false).bind fun key => (accepts_native accepts_readU32).bind fun size =>
    (accepts_native (accepts_take size.toNat)).bind fun data => Accepts.lift fun _ =>
    Accepts.lift fun _ => Accepts.pure _).congr fun b' bs => ?_
  simp only [require_eq_ok, decide_eq_true_eq, Bool.not_eq_true', Bool.eq_false_iff, ne_eq,
    Std.ExtTreeMap.contains_iff_mem]
  constructor
  · rintro ⟨key, _, _, ⟨text, named, rfl⟩, rfl, size, _, _, rfl, rfl, data, _, _, ⟨length, rfl⟩,
      rfl, -, fits, -, fresh, rfl, rfl⟩
    refine ⟨(key, data), ⟨⟨text, named⟩, fresh, length ▸ fits⟩, ?_, ?_⟩
    · simp only [nextBlob, length]
    · simp only [blobLayout, length, List.append_assoc, List.append_nil]
  · rintro ⟨⟨key, data⟩, ⟨⟨text, named⟩, fresh, fits⟩, rfl, rfl⟩
    dsimp only at fits
    have limit : QUOTA < 2 ^ 32 := by decide
    -- what fits the quota has a length of four bytes
    obtain ⟨size, same⟩ := exists_u32_eq limit (show data.length ≤ QUOTA by omega)
    refine ⟨key, _, leBytes 4 data.length ++ data, ⟨text, named, rfl⟩, ?_, size, _, data, rfl, ?_,
      data, _, [], ⟨same.symm, rfl⟩, (List.append_nil _).symm, (), same ▸ fits, (), fresh, ?_, rfl⟩
    · simp only [blobLayout, List.append_assoc]
    · rw [same]
    · simp only [nextBlob, same]

/-- The checks of all turns are those of the other reader, and the quota of this one. -/
theorem admits_fits {quota : Nat} (small : quota ≤ QUOTA) {b : Container × Nat} (used : b.2 ≤ quota)
    (blobs : List (String × Bytes)) : Admits (BlobFits quota) nextBlob b blobs ↔
      Admits BlobStep nextBlob b blobs ∧ b.2 + blobBytes blobs ≤ quota := by
  induction blobs generalizing b with
  | nil => simp [Admits, blobBytes, used]
  | cons blob blobs ih =>
    have sum : b.2 + blobBytes (blob :: blobs) = b.2 + blob.2.length + blobBytes blobs := by
      simp only [blobBytes, List.map_cons, List.sum_cons, Nat.add_assoc]
    simp only [Admits, sum]
    constructor
    · rintro ⟨⟨named, fresh, fits⟩, rest⟩
      have fits : b.2 + blob.2.length ≤ quota := by omega
      obtain ⟨rest, total⟩ := (ih fits).mp rest
      exact ⟨⟨⟨named, fresh, fits.trans small⟩, rest⟩, total⟩
    · -- the limit of the other reader is the larger one, so its checks are dropped
      rintro ⟨⟨⟨named, fresh, -⟩, rest⟩, total⟩
      exact ⟨⟨named, fresh, by omega⟩,
        (ih (show b.2 + blob.2.length ≤ quota by omega)).mpr ⟨rest, total⟩⟩

/-- What one turn of the loop over the containers checks. -/
structure RowFits (quota : Nat) (d : Decoded) (row : Row) : Prop where
  key : TextOk 256 row.key
  keyName : name row.key true = .ok ()
  fresh : row.key ∉ d.state.containers
  displayName : TextOk 4096 row.displayName
  modified : row.modified.toNat ≤ I64_MAX
  count : row.blobs.length ≤ MAX_BLOBS - d.blobs
  blobs : Admits (BlobFits quota) nextBlob (row.head, d.used) row.blobs

theorem accepts_readContainer {quota : Nat} (small : quota ≤ QUOTA) (d : Decoded) :
    Accepts (readContainer quota d) fun d' bs =>
      ∃ row, RowFits quota d row ∧ d' = nextRow d row ∧ bs = rowLayout row := by
  have limit : 4096 < 2 ^ 32 := by decide
  refine ((accepts_readName true).bind fun key => (accepts_text limit).bind fun x =>
    Accepts.lift fun displayName => (accepts_native accepts_readU64).bind fun modified =>
    Accepts.lift fun _ => (accepts_native accepts_readU32).bind fun count => Accepts.lift fun _ =>
    (Accepts.forCount (accepts_readBlob small) count.toNat _).bind fun x => Accepts.lift fun _ =>
    Accepts.pure _).congr fun d' bs => ?_
  simp only [require_eq_ok, utf8Text_eq_ok, decide_eq_true_eq, Bool.not_eq_true',
    Bool.eq_false_iff, ne_eq, Std.ExtTreeMap.contains_iff_mem, foldl_nextBlob]
  constructor
  · rintro ⟨key, _, _, ⟨text, named, rfl⟩, rfl, _, _, _, ⟨low, free, rfl⟩, rfl, displayName, rfl,
      modified, _, _, rfl, rfl, -, past, count, _, _, rfl, rfl, -, few, _, _, _,
      ⟨blobs, length, admits, rfl, rfl⟩, rfl, -, fresh, rfl, rfl⟩
    refine ⟨⟨key, displayName, modified, blobs⟩, ⟨text, named, fresh, ⟨low, free⟩, past,
      length.symm ▸ few, admits⟩, ?_, ?_⟩
    · simp only [nextRow, Row.container, length]
    · simp only [rowLayout, length, textLayout, List.append_assoc, List.append_nil]
  · rintro ⟨⟨key, displayName, modified, blobs⟩, ⟨text, named, fresh, display, past, few, admits⟩,
      rfl, rfl⟩
    dsimp only at few
    have limit : BLOB_LIMIT < 2 ^ 32 := by decide
    have most : MAX_BLOBS = BLOB_LIMIT := rfl
    obtain ⟨n, same⟩ := exists_u32_eq limit (show blobs.length ≤ BLOB_LIMIT by omega)
    refine ⟨key, _, _, ⟨text, named, rfl⟩, ?_, utf8 displayName, _, _,
      ⟨display.1, display.2, rfl⟩, rfl, displayName, rfl, modified, _, _, rfl, rfl, (), past, n, _,
      blobs.flatMap blobLayout ++ [], rfl, rfl, (), same ▸ few, _, _, _,
      ⟨blobs, same.symm, admits, rfl, rfl⟩, rfl, (), fresh, ?_, rfl⟩
    · simp only [rowLayout, same, textLayout, List.append_assoc, List.append_nil]
    · simp only [nextRow, Row.container, same]

theorem admits_rowFits {quota : Nat} (small : quota ≤ QUOTA) {d : Decoded} (used : d.used ≤ quota)
    (blobs : d.blobs ≤ BLOB_LIMIT) (rows : List Row) : Admits (RowFits quota) nextRow d rows ↔
      Admits RowStep nextRow d rows ∧ d.used + totalBytes rows ≤ quota := by
  have most : MAX_BLOBS = BLOB_LIMIT := rfl
  induction rows generalizing d with
  | nil => simp [Admits, totalBytes, used]
  | cons row rows ih =>
    have sum : d.used + totalBytes (row :: rows) =
        d.used + blobBytes row.blobs + totalBytes rows := by
      simp only [totalBytes, List.map_cons, List.sum_cons, Nat.add_assoc]
    have fits := admits_fits small (b := (row.head, d.used)) used row.blobs
    simp only [Admits, sum]
    constructor
    · rintro ⟨⟨key, named, fresh, display, past, few, admits⟩, rest⟩
      obtain ⟨admits, total⟩ := fits.mp admits
      have few : d.blobs + row.blobs.length ≤ BLOB_LIMIT := by omega
      obtain ⟨rest, all⟩ := (ih total few).mp rest
      exact ⟨⟨⟨key, named, fresh, display, past, few, admits⟩, rest⟩, all⟩
    · rintro ⟨⟨⟨key, named, fresh, display, past, few, admits⟩, rest⟩, all⟩
      have total : d.used + blobBytes row.blobs ≤ quota := by omega
      exact ⟨⟨key, named, fresh, display, past, by omega, fits.mpr ⟨admits, total⟩⟩,
        (ih (d := nextRow d row) total few).mpr ⟨rest, all⟩⟩

theorem accepts_readContainers {quota : Nat} (small : quota ≤ QUOTA) :
    Accepts (readContainers quota) fun d bs => (∃ generation rows, RowsOk rows ∧
      d.state = { generation, containers := insertAll ∅ (rows.map Row.entry) } ∧
      d.used = totalBytes rows ∧ d.blobs = totalBlobs rows ∧
      bs = tailLayout generation rows) ∧ d.used ≤ quota := by
  refine ((accepts_native accepts_readU32).bind fun version => Accepts.lift fun _ =>
    (accepts_native accepts_readU64).bind fun generation => (accepts_native accepts_readU32).bind
    fun count => Accepts.lift fun _ =>
    Accepts.forCount (accepts_readContainer small) count.toNat _).congr fun d bs => ?_
  -- the checks of all rows, of the other reader and of this one, from the empty state on
  have admits (generation : UInt64) (rows : List Row) :=
    admits_rows (d := { state := { generation }, used := 0, blobs := 0 })
      (Nat.zero_le _) (Nat.zero_le _) rows
  have fits (generation : UInt64) (rows : List Row) :=
    admits_rowFits small (d := { state := { generation }, used := 0, blobs := 0 })
      (Nat.zero_le _) (Nat.zero_le _) rows
  simp only [require_eq_ok, beq_iff_eq, decide_eq_true_eq, fits, admits, foldl_nextRow,
    Nat.zero_add, Std.ExtTreeMap.not_mem_empty, not_false_eq_true, implies_true, true_and]
  constructor
  · rintro ⟨version, _, _, rfl, rfl, -, rfl, generation, _, _, rfl, rfl, count, _, _, rfl, rfl, -,
      few, rows, length, ⟨⟨each, keys, blobs, used⟩, total⟩, rfl, rfl⟩
    refine ⟨⟨generation, rows, ⟨each, keys, length ▸ few, blobs, used⟩, rfl, rfl, rfl, ?_⟩, total⟩
    rw [tailLayout, length]
    rfl
  · rintro ⟨⟨generation, rows, ok, state, used, blobs, rfl⟩, total⟩
    have limit : CONTAINER_LIMIT < 2 ^ 32 := by decide
    obtain ⟨n, same⟩ := exists_u32_eq limit ok.count
    refine ⟨1, _, _, rfl, rfl, (), rfl, generation, _, _, rfl, rfl, n, _, _, rfl, ?_, (),
      same ▸ ok.count, rows, same.symm, ⟨⟨ok.each, ok.nodup, ok.blobs, ok.used⟩, used ▸ total⟩, ?_,
      rfl⟩
    · rw [same]
    · cases d
      simp only at state used blobs
      rw [state, used, blobs]

theorem usedBytes_eq (s : State) : usedBytes s = totalBytes (rowsOf s) := by
  rw [usedBytes, totalBytes, rowsOf, List.map_map]
  rfl

theorem blobCount_eq (s : State) : blobCount s = totalBlobs (rowsOf s) := by
  rw [blobCount, totalBlobs, rowsOf, List.map_map]
  refine congrArg List.sum (List.map_congr_left fun c _ => ?_)
  exact Std.ExtTreeMap.length_toList.symm

theorem usedBytes_of_rows {s : State} {rows : List Row} (ok : RowsOk rows)
    (containers : s.containers = insertAll ∅ (rows.map Row.entry)) :
    usedBytes s = totalBytes rows := by
  rw [usedBytes_eq, totalBytes, totalBytes]
  exact sum_rowsOf (fun row there => ((sortRow_blobs_perm there).map _).sum_eq) ok containers

/-- To the end of the file, both read the same inside the quota. -/
theorem readToEnd {quota : Nat} (small : quota ≤ QUOTA) {c : Cursor UInt8} {s : State} :
    (∃ d c', readContainers quota c = .ok (d, c') ∧ c'.position = c'.data.length ∧ d.state = s) ↔
      (∃ c', decodeBody c = .ok (s, c')) ∧ usedBytes s ≤ quota := by
  have atEnd (c' : Cursor UInt8) : c'.position = c'.data.length ↔ c'.rest = [] := by
    rw [Cursor.rest, List.drop_eq_nil_iff]
    have := c'.inside
    omega
  rw [decodeBody_eq_ok]
  constructor
  · rintro ⟨d, c', read, ended, rfl⟩
    obtain ⟨_, ⟨⟨generation, rows, ok, state, used, -, rfl⟩, fits⟩, reads⟩ :=
      (accepts_readContainers small c d c').mp read
    refine ⟨⟨rows, ok, by rw [state], ?_⟩, ?_⟩
    · rw [reads.2, (atEnd c').mp ended, List.append_nil, state]
    · rw [usedBytes_of_rows ok (by rw [state]), ← used]
      exact fits
  · rintro ⟨⟨rows, ok, containers, rest⟩, fits⟩
    obtain ⟨c', reads, empty⟩ := Cursor.exists_reads (rest.trans (List.append_nil _).symm)
    rw [usedBytes_of_rows ok containers] at fits
    exact ⟨⟨s, totalBytes rows, totalBlobs rows⟩, c', (accepts_readContainers small c _ c').mpr
      ⟨_, ⟨⟨s.generation, rows, ok, by rw [← containers], rfl, rfl, rfl⟩, fits⟩, reads⟩,
      (atEnd c').mpr empty, rfl⟩

variable [Sha256]

/-- The provider reads what the launcher decodes, as far as its quota goes. -/
theorem load_eq_ok {quota : Nat} (small : quota ≤ QUOTA) {v : Bytes} {s : State} :
    load quota (some v) = .ok s ↔
      decode v = .ok s ∧ usedBytes s ≤ quota ∧ v.length ≤ quota + MAX_METADATA + 32 := by
  have bound : QUOTA + METADATA_LIMIT + 32 ≤ ULONG_MAX := by decide
  have metadata : MAX_METADATA = METADATA_LIMIT := rfl
  simp only [load, deserialize, sha256, decode_run, bind_eq_ok, require_eq_ok, pure_eq_ok,
    Bool.and_eq_true, decide_eq_true_eq, List.isPrefixOf_iff_prefix, beq_iff_eq]
  constructor
  · rintro ⟨-, length, -, ⟨large, magic⟩, _, ⟨-, -, rfl⟩, -, digest, ⟨d, r⟩, read, -, ended, rfl⟩
    obtain ⟨body, fits⟩ := (readToEnd small).mp ⟨d, r, read, ended, rfl⟩
    exact ⟨⟨large, by omega, magic, digest, body⟩, fits, length⟩
  · rintro ⟨⟨large, -, magic, digest, body⟩, fits, length⟩
    obtain ⟨d, r, read, ended, rfl⟩ := (readToEnd small).mpr ⟨body, fits⟩
    refine ⟨(), length, (), ⟨large, magic⟩, _, ⟨(), ?_, rfl⟩, (), digest, (d, r), read, (), ended,
      rfl⟩
    rw [List.length_take]
    omega

/-! ## Writing -/

omit [Sha256] in
theorem foldl_putBlob (v : Bytes) (blobs : List (String × Bytes)) :
    blobs.foldl putBlob v = v ++ blobs.flatMap blobLayout := by
  induction blobs generalizing v with
  | nil => exact (List.append_nil v).symm
  | cons blob blobs ih =>
    rw [List.foldl_cons, ih, putBlob, putstr, List.flatMap_cons, blobLayout, textLayout]
    simp only [List.append_assoc]

omit [Sha256] in
theorem putContainer_eq_ok (quota : Nat) (v : Bytes) (c : String × Container) (v' : Bytes) :
    putContainer quota v c = .ok v' ↔
      (v ++ rowLayout (rowOf c)).length ≤ quota + MAX_METADATA ∧ v' = v ++ rowLayout (rowOf c) := by
  have row : c.2.blobs.toList.foldl putBlob (putstr (putstr v c.1) c.2.displayName ++
      leBytes 8 c.2.modified.toNat ++ leBytes 4 c.2.blobs.size) = v ++ rowLayout (rowOf c) := by
    rw [foldl_putBlob, rowLayout, rowOf, Std.ExtTreeMap.length_toList]
    simp only [putstr, textLayout, List.append_assoc]
  simp only [putContainer, row, bind_eq_ok, require_eq_ok, decide_eq_true_eq, exists_const,
    pure_eq_ok]
  exact and_congr_right fun _ => eq_comm

omit [Sha256] in
theorem admits_rowLayout {limit : Nat} {v : Bytes} (short : v.length ≤ limit) (rows : List Row) :
    Admits (fun v row => (v ++ rowLayout row).length ≤ limit) (fun v row => v ++ rowLayout row) v
      rows ↔ (v ++ rows.flatMap rowLayout).length ≤ limit := by
  induction rows generalizing v with
  | nil => simp [Admits, short]
  | cons row rows ih =>
    rw [Admits, List.flatMap_cons, ← List.append_assoc]
    constructor
    · exact fun both => (ih both.1).mp both.2
    · intro total
      have first : (v ++ rowLayout row).length ≤ limit := by
        rw [List.length_append] at total
        omega
      exact ⟨first, (ih first).mpr total⟩

omit [Sha256] in
theorem foldl_rowLayout (v : Bytes) (rows : List Row) :
    rows.foldl (fun v row => v ++ rowLayout row) v = v ++ rows.flatMap rowLayout := by
  induction rows generalizing v with
  | nil => exact (List.append_nil v).symm
  | cons row rows ih => rw [List.foldl_cons, ih, List.flatMap_cons, List.append_assoc]

/-- What fits is written as a frame. -/
theorem serialize_eq_ok {quota : Nat} (small : quota ≤ QUOTA) {s : State} {v : Bytes} :
    serialize quota s = .ok v ↔
      ((rowsOf s).length ≤ MAX_CONTAINERS ∧ totalBlobs (rowsOf s) ≤ MAX_BLOBS) ∧
      usedBytes s ≤ quota ∧
      (bodyLayout s.generation (rowsOf s)).length ≤ quota + MAX_METADATA ∧
      v = frame s.generation (rowsOf s) := by
  have bound : QUOTA + MAX_METADATA ≤ ULONG_MAX := by decide
  have header (n : Nat) : (headerLayout s.generation n).length ≤ quota + MAX_METADATA := by
    have metadata : 24 ≤ MAX_METADATA := by decide
    simp only [headerLayout, List.length_append, leBytes_length, magic_length]
    omega
  -- the check after each container asks nothing that the last one does not
  have body := admits_rowLayout (header (rowsOf s).length) (rowsOf s)
  have start : MAGIC ++ leBytes 4 1 ++ leBytes 8 s.generation.toNat ++
      leBytes 4 s.containers.size = headerLayout s.generation (rowsOf s).length := by
    rw [headerLayout, rowsOf_length]
  have fold : s.containers.toList.foldl (fun v c => v ++ rowLayout (rowOf c))
      (headerLayout s.generation (rowsOf s).length) = bodyLayout s.generation (rowsOf s) := by
    rw [bodyLayout, ← foldl_rowLayout, rowsOf, List.foldl_map]
  simp only [serialize, sha256, start, bind_eq_ok, require_eq_ok, pure_eq_ok, Bool.and_eq_true,
    decide_eq_true_eq, foldlM_eq_ok (putContainer_eq_ok quota), fold]
  have turns : Admits (fun v c => (v ++ rowLayout (rowOf c)).length ≤ quota + MAX_METADATA)
      (fun v c => v ++ rowLayout (rowOf c)) (headerLayout s.generation (rowsOf s).length)
      s.containers.toList ↔ (bodyLayout s.generation (rowsOf s)).length ≤ quota + MAX_METADATA :=
    (Admits.map rowOf _ s.containers.toList).trans body
  rw [turns, blobCount_eq, ← rowsOf_length]
  constructor
  · rintro ⟨-, counts, -, used, _, ⟨short, rfl⟩, _, ⟨-, -, rfl⟩, rfl⟩
    exact ⟨counts, used, short, rfl⟩
  · rintro ⟨counts, used, short, rfl⟩
    exact ⟨(), counts, (), used, _, ⟨short, rfl⟩, _, ⟨(), by omega, rfl⟩, rfl⟩

/-- The names, texts and times that the provider checks where they come in. -/
def Sound (s : State) : Prop := ∀ row ∈ rowsOf s, RowOk row

omit [Sha256] in
theorem Sound.rowsOk {s : State} (sound : Sound s)
    (counts : (rowsOf s).length ≤ MAX_CONTAINERS ∧ totalBlobs (rowsOf s) ≤ MAX_BLOBS)
    (used : usedBytes s ≤ QUOTA) : RowsOk (rowsOf s) :=
  ⟨sound, rowsOf_nodup s, counts.1, counts.2, usedBytes_eq s ▸ used⟩

/-- What a session of this quota takes. -/
def Within (quota : Nat) (s : State) (v : Bytes) : Prop :=
  usedBytes s ≤ quota ∧ v.length ≤ quota + MAX_METADATA + 32

/-- The launcher writes a sound state with the bytes that the provider writes. -/
theorem serialize_eq_encode {quota : Nat} (small : quota ≤ QUOTA) {s : State} {v : Bytes} :
    Sound s ∧ serialize quota s = .ok v ↔ encode s = .ok v ∧ Within quota s v := by
  have metadata : MAX_METADATA = METADATA_LIMIT := rfl
  rw [encode_eq_ok, serialize_eq_ok small, Within]
  constructor
  · rintro ⟨sound, counts, used, short, rfl⟩
    refine ⟨⟨sound.rowsOk counts (used.trans small), by omega, rfl⟩, used, ?_⟩
    rw [frame_length]
    omega
  · rintro ⟨⟨ok, -, rfl⟩, used, short⟩
    rw [frame_length] at short
    exact ⟨ok.each, ⟨ok.count, ok.blobs⟩, used, by omega, rfl⟩

theorem load_serialize {quota : Nat} (small : quota ≤ QUOTA) {s : State} (sound : Sound s)
    {v : Bytes} (written : serialize quota s = .ok v) : load quota (some v) = .ok s := by
  have both := (serialize_eq_encode small).mp ⟨sound, written⟩
  exact (load_eq_ok small).mpr ⟨decode_encode both.1, both.2⟩

theorem sound_of_decode {s : State} {v : Bytes} (decoded : decode v = .ok s) : Sound s := by
  obtain ⟨rows, ok, containers, -⟩ := decode_eq_ok.mp decoded
  exact (rowsOf_ok ok containers).each

/-- Two programs in two languages share one format. -/
theorem codecs_agree (quota : Quota) (s : State) (v : Bytes) :
    (load quota (some v) = .ok s ↔ decode v = .ok s ∧ Within quota s v) ∧
    (Sound s ∧ serialize quota s = .ok v ↔ encode s = .ok v ∧ Within quota s v) ∧
    (Sound s → serialize quota s = .ok v → load quota (some v) = .ok s) :=
  ⟨load_eq_ok quota.2.2, serialize_eq_encode quota.2.2,
    fun sound => load_serialize quota.2.2 sound⟩

end Flightdeck.GameSave.LocalSave
