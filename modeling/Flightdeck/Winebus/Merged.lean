import Flightdeck.Files
import Flightdeck.Foundation.Outcome
import Flightdeck.Graphics.Document
import Flightdeck.Winebus.Allowlist

/-!
# The list that is merged

A list of devices is read back from both of its spellings, and a merged list needs no second merge.
-/

namespace Flightdeck.Winebus

open Foundation
open GraphicsSettings (trim isWhitespace)

/-! ## Ids -/

theorem isHexDigit_range {c : Char} (h : isHexDigit c = true) :
    48 ≤ c.toNat ∧ c.toNat ≤ 102 ∧ c.toNat ≠ 92 := by
  unfold isHexDigit at h
  simp only [Char.isDigit, Bool.or_eq_true, Bool.and_eq_true, decide_eq_true_eq, Char.le_def,
    UInt32.le_iff_toNat_le, ge_iff_le] at h
  have toNat : c.toNat = c.val.toNat := rfl
  rw [toNat]
  rcases h with (⟨low, high⟩ | ⟨low, high⟩) | ⟨low, high⟩
  · change 48 ≤ _ at low
    change _ ≤ 57 at high
    omega
  · change 97 ≤ _ at low
    change _ ≤ 102 at high
    omega
  · change 65 ≤ _ at low
    change _ ≤ 70 at high
    omega

theorem validId_chars {id : Text} (valid : validId id = true) :
    id.length = 9 ∧ ∀ c ∈ id, 48 ≤ c.toNat ∧ c.toNat ≤ 102 ∧ c.toNat ≠ 92 := by
  unfold validId at valid
  split at valid
  next a b c d colon e f g h =>
    rw [Bool.and_eq_true, beq_iff_eq, List.all_eq_true] at valid
    obtain ⟨rfl, digits⟩ := valid
    refine ⟨rfl, fun c there => ?_⟩
    by_cases mid : c = ':'
    · rw [mid]
      decide
    · apply isHexDigit_range
      apply digits
      simp only [List.mem_cons, List.not_mem_nil, or_false] at there ⊢
      tauto
  next => cases valid

theorem notMem_of_valid {id : Text} (valid : validId id = true) (c : Char)
    (other : c.toNat < 48 ∨ c.toNat = 92) : c ∉ id := by
  intro there
  have ⟨low, _, plain⟩ := (validId_chars valid).2 c there
  omega

theorem filled_of_valid {id : Text} (valid : validId id = true) : id ≠ [] := by
  rintro rfl
  cases valid

/-! ## The texts of a list -/

/-- The texts with a NUL between them. -/
def body (ids : List Text) : Text := ['\x00'].intercalate ids

theorem body_cons (id next : Text) (ids : List Text) :
    body (id :: next :: ids) = id ++ '\x00' :: body (next :: ids) := by
  rw [body, List.intercalate_cons_cons, List.append_assoc]
  rfl

theorem body_last {ids : List Text} (valid : ∀ id ∈ ids, validId id = true)
    (filled : body ids ≠ []) :
    ¬isNul ((body ids).getLast filled) = true := by
  induction ids with
  | nil => exact absurd rfl filled
  | cons id ids ih =>
    obtain ⟨first, rest⟩ := List.forall_mem_cons.mp valid
    cases ids with
    | nil =>
      have single : body [id] = id := List.intercalate_singleton
      have inside : ∀ c ∈ body [id], c ∈ id := by
        rw [single]
        exact fun _ there => there
      have last : (body [id]).getLast filled ∈ id := inside _ (List.getLast_mem filled)
      intro nul
      have same : (body [id]).getLast filled = '\x00' := by simpa [isNul] using nul
      rw [same] at last
      exact notMem_of_valid first '\x00' (.inl (by decide)) last
    | cons next ids =>
      have later : body (next :: ids) ≠ [] := by
        have nonempty := filled_of_valid (rest next List.mem_cons_self)
        cases ids with
        | nil =>
          show ['\x00'].intercalate [next] ≠ []
          rw [List.intercalate_singleton]
          exact nonempty
        | cons _ _ =>
          rw [body_cons]
          exact List.append_ne_nil_of_left_ne_nil nonempty _
      have same : (body (id :: next :: ids)).getLast filled =
          (body (next :: ids)).getLast later := by
        simp only [body_cons]
        rw [List.getLast_append_of_ne_nil _ (List.cons_ne_nil _ _), List.getLast_cons later]
      rw [same]
      exact ih rest later

theorem rdropWhile_replicate (text : Text) (k : Nat) :
    (text ++ List.replicate k '\x00').rdropWhile isNul = text.rdropWhile isNul := by
  induction k with
  | zero => rw [List.replicate_zero, List.append_nil]
  | succ k ih =>
    rw [List.replicate_succ', ← List.append_assoc,
      List.rdropWhile_concat_pos _ _ _ (by decide), ih]

/-- However many NULs end them, the texts are read back. -/
theorem pieces_body {ids : List Text} (valid : ∀ id ∈ ids, validId id = true) (k : Nat) :
    pieces (body ids ++ List.replicate k '\x00') = ids := by
  unfold pieces
  rw [rdropWhile_replicate, List.rdropWhile_eq_self_iff.mpr (body_last valid)]
  cases ids with
  | nil => rfl
  | cons id ids =>
    rw [body, List.splitOn_intercalate '\x00' (fun other there =>
      notMem_of_valid (valid other there) '\x00' (.inl (by decide))) (List.cons_ne_nil _ _)]
    rw [List.filter_eq_self]
    intro other there
    have filled := filled_of_valid (valid other there)
    simpa using filled

/-! ## The spelling of `reg export` -/

/-- Two lower-case digits. -/
def hexByte (b : UInt8) : Text := [hexDigit (b / 16), hexDigit (b % 16)]

/-- The bytes of a `REG_MULTI_SZ`. -/
def multiBytes (ids : List Text) : Bytes :=
  ((body ids ++ ['\x00', '\x00']).flatMap utf16Units).flatMap (unitBytes true)

def hexSpelling (ids : List Text) : Text :=
  HEX ++ [','].intercalate ((multiBytes ids).map hexByte)

theorem hexByte_read : ∀ n < 256, ',' ∉ hexByte (UInt8.ofNat n) ∧
    (fromHex 256 (trim (hexByte (UInt8.ofNat n)))).map UInt8.ofNat = some (UInt8.ofNat n) := by
  decide +kernel

theorem hexBytes_spelled {bytes : Bytes} (filled : bytes ≠ []) :
    hexBytes ([','].intercalate (bytes.map hexByte)) = some bytes := by
  have each : ∀ b : UInt8, ',' ∉ hexByte b ∧
      (fromHex 256 (trim (hexByte b))).map UInt8.ofNat = some b := by
    intro b
    have spelled := hexByte_read b.toNat b.toNat_lt
    rwa [UInt8.ofNat_toNat] at spelled
  unfold hexBytes
  rw [List.splitOn_intercalate ',' _ (by simpa using filled)]
  · clear filled
    induction bytes with
    | nil => rfl
    | cons b bytes ih =>
      rw [List.map_cons, List.mapM_cons, (each b).2, ih]
      rfl
  · intro part there
    obtain ⟨b, _, rfl⟩ := List.mem_map.mp there
    exact (each b).1

theorem unit_of_low {c : Char} (low : c.toNat < 0x80) : utf16Units c = [c.toNat] := by
  rw [utf16Units, if_pos (by omega)]

theorem body_low {ids : List Text} (valid : ∀ id ∈ ids, validId id = true) :
    ∀ c ∈ body ids, c.toNat < 0x80 := by
  induction ids with
  | nil => exact nofun
  | cons id ids ih =>
    obtain ⟨first, rest⟩ := List.forall_mem_cons.mp valid
    have own : ∀ c ∈ id, c.toNat < 0x80 := fun c there => by
      have ⟨_, high, _⟩ := (validId_chars first).2 c there
      omega
    cases ids with
    | nil =>
      have single : body [id] = id := List.intercalate_singleton
      rwa [single]
    | cons next ids =>
      rw [body_cons, List.forall_mem_append, List.forall_mem_cons]
      exact ⟨own, by decide, ih rest⟩

theorem length_body {ids : List Text} (valid : ∀ id ∈ ids, validId id = true) :
    (body ids).length ≤ 10 * ids.length := by
  induction ids with
  | nil => exact Nat.le_refl _
  | cons id ids ih =>
    obtain ⟨first, rest⟩ := List.forall_mem_cons.mp valid
    have nine := (validId_chars first).1
    cases ids with
    | nil =>
      have single : body [id] = id := List.intercalate_singleton
      rw [single, nine]
      exact Nat.le_of_ble_eq_true rfl
    | cons next ids =>
      have later := ih rest
      rw [body_cons, List.length_append, List.length_cons, nine]
      simp only [List.length_cons] at later ⊢
      omega

theorem flatMap_units {text : Text} (low : ∀ c ∈ text, c.toNat < 0x80) :
    text.flatMap utf16Units = text.map Char.toNat := by
  induction text with
  | nil => rfl
  | cons c text ih =>
    obtain ⟨first, rest⟩ := List.forall_mem_cons.mp low
    rw [List.flatMap_cons, unit_of_low first, ih rest]
    rfl

theorem length_unitBytes (units : List Nat) :
    (units.flatMap (unitBytes true)).length = 2 * units.length := by
  induction units with
  | nil => rfl
  | cons unit units ih =>
    rw [List.flatMap_cons, List.length_append, ih, List.length_cons]
    have two : (unitBytes true unit).length = 2 := rfl
    omega

theorem multiBytes_eq {ids : List Text} (valid : ∀ id ∈ ids, validId id = true) :
    multiBytes ids = ((body ids).map Char.toNat).flatMap (unitBytes true) ++ [0, 0, 0, 0] := by
  unfold multiBytes
  rw [List.flatMap_append, List.flatMap_append, flatMap_units (body_low valid)]
  rfl

theorem stripPrefix_append (start text : Text) : stripPrefix start (start ++ text) = some text := by
  unfold stripPrefix
  rw [if_pos (List.isPrefixOf_iff_prefix.mpr (List.prefix_append _ _)), List.drop_left]

theorem orInvalid_eq_ok {α : Type} {x : Option α} {a : α} : orInvalid x = .ok a ↔ x = some a := by
  cases x <;> simp [orInvalid]

theorem valueText_hex {ids : List Text} (valid : ∀ id ∈ ids, validId id = true)
    (few : ids.length ≤ 48) :
    valueText (hexSpelling ids) = .ok (body ids ++ ['\x00', '\x00']) := by
  have shape := multiBytes_eq valid
  have size := length_body valid
  have filled : multiBytes ids ≠ [] := by
    rw [shape]
    exact List.append_ne_nil_of_right_ne_nil _ (List.cons_ne_nil _ _)
  have length : (multiBytes ids).length = 2 * (body ids).length + 4 := by
    rw [shape, List.length_append, length_unitBytes, List.length_map]
    rfl
  have accepted : ((multiBytes ids).length ≤ 1024 && (multiBytes ids).length % 2 == 0 &&
      [0, 0, 0, 0].isSuffixOf (multiBytes ids)) = true := by
    have suffix : [0, 0, 0, 0].isSuffixOf (multiBytes ids) = true := by
      rw [List.isSuffixOf_iff_suffix, shape]
      exact List.suffix_append _ _
    rw [suffix, length, Bool.and_true, Bool.and_eq_true, decide_eq_true_eq, beq_iff_eq]
    omega
  have read : fromUtf16 (toUnits true (multiBytes ids)) = some (body ids ++ ['\x00', '\x00']) := by
    unfold multiBytes
    rw [toUnits_flatMap, fromUtf16_encode]
    intro w there
    obtain ⟨c, _, there⟩ := List.mem_flatMap.mp there
    exact utf16Units_lt c w there
  unfold valueText hexSpelling
  rw [stripPrefix_append]
  dsimp only
  rw [hexBytes_spelled filled]
  show (require _ _ >>= fun _ => orInvalid _) = _
  rw [accepted, read]
  rfl

/-! ## The spelling of Wine -/

def strSpelling (ids : List Text) : Text :=
  STR ++ ids.flatMap (fun id => id ++ ['\\', '0']) ++ ['"']

theorem unescape_plain {text : Text} (plain : '\\' ∉ text) (rest : Text) :
    unescape (text ++ rest) = text ++ unescape rest := by
  induction text with
  | nil => rfl
  | cons c text ih =>
    rw [List.mem_cons, not_or] at plain
    rw [List.cons_append, List.cons_append, ← ih plain.2]
    exact unescape.eq_2 c (text ++ rest) fun _ same _ => plain.1 same.symm

theorem unescape_ids {ids : List Text} (valid : ∀ id ∈ ids, validId id = true) :
    unescape (ids.flatMap fun id => id ++ ['\\', '0']) =
      ids.flatMap fun id => id ++ ['\x00'] := by
  induction ids with
  | nil => rfl
  | cons id ids ih =>
    obtain ⟨first, rest⟩ := List.forall_mem_cons.mp valid
    rw [List.flatMap_cons, List.flatMap_cons, List.append_assoc,
      unescape_plain (notMem_of_valid first '\\' (.inr (by decide))), List.append_assoc, ← ih rest]
    rfl

theorem flatMap_ended {ids : List Text} (filled : ids ≠ []) :
    (ids.flatMap fun id => id ++ ['\x00']) = body ids ++ ['\x00'] := by
  induction ids with
  | nil => exact absurd rfl filled
  | cons id ids ih =>
    rw [List.flatMap_cons]
    cases ids with
    | nil =>
      have single : body [id] = id := List.intercalate_singleton
      rw [single, List.flatMap_nil, List.append_nil]
    | cons next ids =>
      rw [ih (List.cons_ne_nil _ _), body_cons, List.append_assoc, List.append_assoc]
      rfl

theorem utf8Length_ids {ids : List Text} (valid : ∀ id ∈ ids, validId id = true) :
    utf8Length (ids.flatMap fun id => id ++ ['\\', '0']) = 11 * ids.length := by
  induction ids with
  | nil => rfl
  | cons id ids ih =>
    obtain ⟨first, rest⟩ := List.forall_mem_cons.mp valid
    have ⟨nine, low⟩ := validId_chars first
    have each : ∀ c ∈ id, c.utf8Size = 1 := by
      intro c there
      have ⟨_, high, _⟩ := low c there
      rw [Char.utf8Size_eq_one_iff]
      show c.val ≤ 0x7f
      rw [UInt32.le_iff_toNat_le]
      exact Nat.le_trans high (by decide)
    have own : (id.map Char.utf8Size).sum = 9 := by
      rw [List.map_congr_left each, List.map_const', nine]
      rfl
    have later := ih rest
    unfold utf8Length at later ⊢
    rw [List.flatMap_cons, List.map_append, List.sum_append, later, List.map_append,
      List.sum_append, own, List.length_cons]
    have two : (['\\', '0'].map Char.utf8Size).sum = 2 := by decide
    omega

theorem valueText_str {ids : List Text} (valid : ∀ id ∈ ids, validId id = true)
    (few : ids.length ≤ 48) :
    valueText (strSpelling ids) = .ok (ids.flatMap fun id => id ++ ['\x00']) := by
  have notHex : stripPrefix HEX (strSpelling ids) = none := rfl
  have cut : (stripPrefix STR (strSpelling ids)).bind (stripSuffix '"') =
      some (ids.flatMap fun id => id ++ ['\\', '0']) := by
    unfold strSpelling
    rw [List.append_assoc, stripPrefix_append, Option.bind_some, stripSuffix, List.getLast?_concat,
      if_pos rfl, List.dropLast_concat]
  have ended : ((ids.flatMap fun id => id ++ ['\\', '0']).isEmpty ||
      ['\\', '0'].isSuffixOf (ids.flatMap fun id => id ++ ['\\', '0'])) = true := by
    rcases List.eq_nil_or_concat ids with rfl | ⟨start, last, rfl⟩
    · rfl
    · rw [Bool.or_eq_true, List.isSuffixOf_iff_suffix, List.concat_eq_append, List.flatMap_append,
        List.flatMap_singleton, ← List.append_assoc]
      exact .inr (List.suffix_append _ _)
  unfold valueText
  rw [notHex]
  dsimp only
  rw [cut]
  show (require _ _ >>= fun _ => _) = _
  rw [ended, utf8Length_ids valid, Bool.and_true, decide_eq_true (by omega), unescape_ids valid]
  rfl

/-- Both spellings of a list are decoded to it. -/
theorem decode_spelled {ids : List Text} (valid : ∀ id ∈ ids, validId id = true)
    (few : ids.length ≤ 48) {value : Text}
    (spelled : value = hexSpelling ids ∨ value = strSpelling ids) :
    decode value = .ok ids := by
  have checked : (decide (ids.length ≤ 48) && ids.all validId) = true := by
    rw [decide_eq_true few, Bool.true_and, List.all_eq_true]
    exact valid
  have decoded : ∀ text, valueText value = .ok text → pieces text = ids →
      decode value = .ok ids := by
    intro text read same
    unfold decode
    rw [read]
    show (require _ _ >>= fun _ => _) = _
    rw [same, checked]
    rfl
  rcases spelled with rfl | rfl
  · exact decoded _ (valueText_hex valid few) (pieces_body valid 2)
  · apply decoded _ (valueText_str valid few)
    by_cases filled : ids = []
    · rw [filled]
      rfl
    · rw [flatMap_ended filled]
      exact pieces_body valid 1

/-! ## Lines -/

/-- A line of the registry that is written over several lines of the text. -/
inductive Continues : Text → List Text → Prop
  | last {whole line : Text} : trim line = whole → whole.getLast? ≠ some '\\' →
      Continues whole [line]
  | more {start rest line : Text} {lines : List Text} : trim line = start ++ ['\\'] →
      Continues rest lines → Continues (start ++ rest) (line :: lines)

theorem logical_continues {whole : Text} {entry : List Text} (continues : Continues whole entry)
    (pending : Text) (after : List Text) :
    logical pending (entry ++ after) = (logical [] after).map ((pending ++ whole) :: ·) := by
  induction continues generalizing pending with
  | last read plain =>
    rw [List.singleton_append, logical, stripSuffix, read, if_neg plain]
  | more read _ ih =>
    rw [List.cons_append, logical, stripSuffix, read, List.getLast?_concat, if_pos rfl]
    dsimp only
    rw [List.dropLast_concat, ih, List.append_assoc]

theorem logical_append {before after rows : List Text} {pending : Text}
    (read : logical pending before = some rows) :
    logical pending (before ++ after) = (logical [] after).map (rows ++ ·) := by
  induction before generalizing pending rows with
  | nil =>
    unfold logical at read
    split at read
    next empty =>
      cases read
      rw [empty]
      exact Option.map_id'.symm
    next => cases read
  | cons line before ih =>
    rw [logical] at read
    rw [List.cons_append, logical]
    split at read
    next start cut => exact ih read
    next cut =>
      obtain ⟨later, found, rfl⟩ := Option.map_eq_some_iff.mp read
      rw [ih found, Option.map_map]
      rfl

/-- The names that `settings` reads. -/
def NAMES : List Text :=
  ["\"enablehidraw\"".toList, "\"disablehidraw\"".toList, "\"hidraw\"".toList]

/-- A line that names a section, or a value that is not read. -/
def Quiet (line : Text) : Prop :=
  line.head? = some '[' ∨ ∀ name value, splitOnce line = some (name, value) → lower name ∉ NAMES

theorem readValue_quiet {name : Text} (other : name ∉ NAMES) (state : Reading) (value : Text) :
    readValue state name value = .ok state := by
  simp only [NAMES, List.mem_cons, List.not_mem_nil, or_false, not_or] at other
  unfold readValue
  rw [if_neg fun here => other.1 here.2, if_neg fun here => other.2.1 here.2,
    if_neg fun here => other.2.2 here.2]
  rfl

/-- The section after a line. -/
def sectionAfter (current : Text) : Text → Text
  | '[' :: rest => sectionName rest
  | _ => current

theorem readLine_value {line name value : Text} (start : line.head? ≠ some '[')
    (cut : splitOnce line = some (name, value)) (state : Reading) :
    readLine state line = readValue state (lower name) value := by
  unfold readLine
  split
  next => exact absurd rfl start
  next =>
    rw [cut]

theorem readLine_none {line : Text} (start : line.head? ≠ some '[')
    (cut : splitOnce line = none) (state : Reading) : readLine state line = .ok state := by
  unfold readLine
  split
  next => exact absurd rfl start
  next =>
    rw [cut]
    rfl

theorem sectionAfter_value {line : Text} (start : line.head? ≠ some '[') (current : Text) :
    sectionAfter current line = current := by
  unfold sectionAfter
  split
  next => exact absurd rfl start
  next => rfl

theorem readLine_quiet {line : Text} (quiet : Quiet line) (state : Reading) :
    readLine state line = .ok { state with current := sectionAfter state.current line } := by
  by_cases start : line.head? = some '['
  · obtain ⟨rest, rfl⟩ := List.head?_eq_some_iff.mp start
    rfl
  · have other := quiet.resolve_left start
    rw [sectionAfter_value start]
    cases cut : splitOnce line with
    | none => rw [readLine_none start cut]
    | some parts => rw [readLine_value start cut, readValue_quiet (other _ _ cut)]

theorem readLines_quiet {rows : List Text} (quiet : ∀ line ∈ rows, Quiet line) (state : Reading) :
    rows.foldlM readLine state =
      .ok { state with current := rows.foldl sectionAfter state.current } := by
  induction rows generalizing state with
  | nil => rfl
  | cons line rows ih =>
    obtain ⟨first, rest⟩ := List.forall_mem_cons.mp quiet
    rw [List.foldlM_cons, readLine_quiet first]
    exact ih rest _

/-! ## Registry texts -/

def ENABLE : Text := "\"EnableHidraw\"=".toList

/-- A registry text that says this, and nothing else, of the devices: the value stands in a section
of Winebus, on one line or continued on others. -/
structure Exports (raw : Bytes) (value : Text) : Prop where
  size : raw.length ≤ 64 * 1024 * 1024
  lines : ∃ content before entry after rowsBefore rowsAfter,
    text raw = .ok content ∧ lines content = before ++ entry ++ after ∧
    logical [] before = some rowsBefore ∧ Continues (ENABLE ++ value) entry ∧
    logical [] after = some rowsAfter ∧ (∀ line ∈ rowsBefore, Quiet line) ∧
    rowsBefore.foldl sectionAfter [] ∈ MAIN ∧ ∀ line ∈ rowsAfter, Quiet line

theorem settings_exports {raw : Bytes} {value : Text} {ids : List Text}
    (exports : Exports raw value) (decoded : decode value = .ok ids) :
    settings raw = .ok ⟨ids, false⟩ := by
  obtain ⟨content, before, entry, after, rowsBefore, rowsAfter, read, shape, first, continues, last,
    quiet, main, quiet'⟩ := exports.lines
  have rows : logical [] (lines content) = some (rowsBefore ++ (ENABLE ++ value) :: rowsAfter) := by
    rw [shape, List.append_assoc, logical_append first, logical_continues continues, last]
    rfl
  have cut : splitOnce (ENABLE ++ value) = some ("\"EnableHidraw\"".toList, value) := rfl
  have start : (ENABLE ++ value).head? ≠ some '[' := by
    show some '"' ≠ some '['
    decide
  have entered : readLine { current := rowsBefore.foldl sectionAfter [] } (ENABLE ++ value) =
      .ok { found := some ids, current := rowsBefore.foldl sectionAfter [] } := by
    rw [readLine_value start cut]
    unfold readValue
    rw [if_pos ⟨main, by decide⟩, decoded]
    rfl
  have folded : (rowsBefore ++ (ENABLE ++ value) :: rowsAfter).foldlM readLine {} =
      .ok { found := some ids,
            current := rowsAfter.foldl sectionAfter (rowsBefore.foldl sectionAfter []) } := by
    rw [List.foldlM_append, readLines_quiet quiet]
    show List.foldlM readLine _ _ = _
    rw [List.foldlM_cons, entered]
    show List.foldlM readLine _ _ = _
    rw [readLines_quiet quiet']
  unfold settings
  exact bind_eq_ok.mpr ⟨(), require_eq_ok.mpr (decide_eq_true exports.size), bind_eq_ok.mpr
    ⟨content, read, bind_eq_ok.mpr ⟨_, orInvalid_eq_ok.mpr rows, bind_eq_ok.mpr ⟨_, folded, rfl⟩⟩⟩⟩

/-- A list of one device, continued on a second line. -/
def exported : List Text :=
  ["[HKEY_LOCAL_MACHINE\\System\\CurrentControlSet\\Services\\winebus]".toList,
    "\"EnableHidraw\"=hex(7):31,00,32,00,33,00,34,00,3a,00,\\".toList,
    "  41,00,42,00,43,00,44,00,00,00,00,00".toList]

theorem exported_continues :
    Continues (ENABLE ++ hexSpelling ["1234:ABCD".toList]) (exported.drop 1) := by
  have last : Continues "41,00,42,00,43,00,44,00,00,00,00,00".toList (exported.drop 2) :=
    .last rfl (by decide)
  have first : trim "\"EnableHidraw\"=hex(7):31,00,32,00,33,00,34,00,3a,00,\\".toList =
      "\"EnableHidraw\"=hex(7):31,00,32,00,33,00,34,00,3a,00,".toList ++ ['\\'] := rfl
  have whole : ENABLE ++ hexSpelling ["1234:ABCD".toList] =
      "\"EnableHidraw\"=hex(7):31,00,32,00,33,00,34,00,3a,00,".toList ++
        "41,00,42,00,43,00,44,00,00,00,00,00".toList := by decide
  rw [whole]
  exact .more first last

example (raw : Bytes) (content : Text) (size : raw.length ≤ 64 * 1024 * 1024)
    (read : text raw = .ok content) (shape : lines content = exported) :
    Exports raw (hexSpelling ["1234:ABCD".toList]) where
  size := size
  lines := ⟨content, exported.take 1, exported.drop 1, [], _, [], read, shape, rfl,
    exported_continues, rfl, List.forall_mem_singleton.mpr (.inl rfl), by decide, nofun⟩

/-! ## The merge -/

/-- The ids that are needed and not in the list. -/
def missing (ids : List Text) : List Text := IDS.filter fun id => !ids.any (sameId · id)

theorem addIds_eq {needed : List Text} (apart : needed.Pairwise fun a b => sameId a b = false)
    (ids : List Text) (changed : Bool) :
    needed.foldl addId (ids, changed) =
      (ids ++ needed.filter fun id => !ids.any (sameId · id),
        changed || needed.any fun id => !ids.any (sameId · id)) := by
  induction needed generalizing ids changed with
  | nil => simp
  | cons id needed ih =>
    obtain ⟨first, rest⟩ := List.pairwise_cons.mp apart
    rw [List.foldl_cons, addId]
    dsimp only
    cases there : ids.any (sameId · id) with
    | true =>
      rw [if_pos rfl, ih rest]
      simp [there]
    | false =>
      rw [if_neg Bool.false_ne_true, ih rest]
      have same : ∀ other ∈ needed, (!(ids ++ [id]).any (sameId · other)) =
          !ids.any (sameId · other) := by
        intro other inside
        rw [List.any_append, List.any_cons, first other inside]
        simp
      have kept : (needed.filter fun other => !(ids ++ [id]).any (sameId · other)) =
          needed.filter fun other => !ids.any (sameId · other) :=
        List.filter_congr same
      rw [kept]
      simp [there]

theorem merge_eq (ids : List Text) :
    IDS.foldl addId (ids, false) = (ids ++ missing ids, !(missing ids).isEmpty) := by
  have apart : IDS.Pairwise fun a b => sameId a b = false := by decide
  have some : (IDS.any fun id => !ids.any (sameId · id)) = !(missing ids).isEmpty := by
    rw [Bool.eq_iff_iff, List.any_eq_true, Bool.not_eq_true', List.isEmpty_eq_false_iff_exists_mem,
      missing]
    refine exists_congr fun id => ?_
    rw [List.mem_filter]
  rw [addIds_eq apart, Bool.false_or, some]
  rfl

/-- What is merged into a list that is not disabled and not full. -/
theorem mergedAllowlist_eq {raw : Bytes} {s : Settings} (read : settings raw = .ok s) :
    mergedAllowlist raw =
      if s.disabled then .error (.invalid DISABLED)
      else if (s.ids ++ missing s.ids).length ≤ 48 then
        .ok (if missing s.ids = [] then none else some (join (s.ids ++ missing s.ids)))
      else .error (.invalid INVALID) := by
  unfold mergedAllowlist
  rw [read]
  show (require (!s.disabled) _ >>= fun _ => listed _) = _
  rw [merge_eq]
  cases s.disabled with
  | true => rfl
  | false =>
    show listed _ = _
    unfold listed
    dsimp only
    rw [if_neg Bool.false_ne_true]
    by_cases few : (s.ids ++ missing s.ids).length ≤ 48
    · rw [decide_eq_true few, if_pos few]
      by_cases none : missing s.ids = []
      · rw [if_pos none, none]
        rfl
      · rw [if_neg none]
        have some : (missing s.ids).isEmpty = false := List.isEmpty_eq_false_iff.mpr none
        rw [some]
        rfl
    · rw [decide_eq_false few, if_neg few]
      rfl

theorem missing_merged (ids : List Text) : missing (ids ++ missing ids) = [] := by
  rw [missing, List.filter_eq_nil_iff]
  intro id needed
  rw [Bool.not_eq_true', Bool.not_eq_false]
  cases there : ids.any (sameId · id) with
  | true => rw [List.any_append, there, Bool.true_or]
  | false =>
    have own : id ∈ missing ids := List.mem_filter.mpr ⟨needed, by rw [there]; rfl⟩
    rw [List.any_append, Bool.or_eq_true, List.any_eq_true, List.any_eq_true]
    exact .inr ⟨id, own, by rw [sameId, beq_self_eq_true]⟩

/-! ## What a text is read as -/

/-- The list that was found is one that `decode` returns. -/
def Sound (state : Reading) : Prop :=
  ∀ ids, state.found = some ids → ids.length ≤ 48 ∧ ∀ id ∈ ids, validId id = true

theorem decode_sound {value : Text} {ids : List Text} (read : decode value = .ok ids) :
    ids.length ≤ 48 ∧ ∀ id ∈ ids, validId id = true := by
  obtain ⟨text, _, read⟩ := bind_eq_ok.mp read
  obtain ⟨_, checked, read⟩ := bind_eq_ok.mp read
  rw [require_eq_ok, Bool.and_eq_true, decide_eq_true_eq, List.all_eq_true] at checked
  rw [← pure_eq_ok.mp read]
  exact checked

/-- What one line does: the section, the list that was found, and that nothing is enabled again. -/
theorem readLine_eq_ok {state next : Reading} {line : Text}
    (read : readLine state line = .ok next) :
    next.current = sectionAfter state.current line ∧
      (next.found = state.found ∨ ∃ value ids, decode value = .ok ids ∧ next.found = some ids) ∧
      (state.disabled = true → next.disabled = true) := by
  by_cases start : line.head? = some '['
  · obtain ⟨rest, rfl⟩ := List.head?_eq_some_iff.mp start
    cases read
    exact ⟨rfl, .inl rfl, fun still => still⟩
  · rw [sectionAfter_value start]
    cases cut : splitOnce line with
    | none =>
      rw [readLine_none start cut] at read
      cases read
      exact ⟨rfl, .inl rfl, fun still => still⟩
    | some parts =>
      rw [readLine_value start cut] at read
      unfold readValue at read
      split at read
      next =>
        obtain ⟨ids, found, read⟩ := bind_eq_ok.mp read
        obtain ⟨_, _, read⟩ := bind_eq_ok.mp read
        cases read
        exact ⟨rfl, .inr ⟨_, ids, found, rfl⟩, fun still => still⟩
      next =>
        split at read
        next =>
          obtain ⟨digits, _, read⟩ := bind_eq_ok.mp read
          obtain ⟨n, _, read⟩ := bind_eq_ok.mp read
          cases read
          exact ⟨rfl, .inl rfl, fun still => by simp [still]⟩
        next =>
          split at read
          next =>
            cases read
            exact ⟨rfl, .inl rfl, fun still => by simp [still]⟩
          next =>
            cases read
            exact ⟨rfl, .inl rfl, fun still => still⟩

theorem readLines_eq_ok {rows : List Text} {state final : Reading} (sound : Sound state)
    (read : rows.foldlM readLine state = .ok final) :
    final.current = rows.foldl sectionAfter state.current ∧ Sound final ∧
      (state.disabled = true → final.disabled = true) := by
  induction rows generalizing state with
  | nil =>
    cases read
    exact ⟨rfl, sound, fun still => still⟩
  | cons line rows ih =>
    rw [List.foldlM_cons] at read
    obtain ⟨next, first, later⟩ := bind_eq_ok.mp read
    obtain ⟨current, found, still⟩ := readLine_eq_ok first
    have sound' : Sound next := by
      intro ids here
      rcases found with same | ⟨value, ids', decoded, here'⟩
      · exact sound ids (same ▸ here)
      · rw [here'] at here
        cases here
        exact decode_sound decoded
    obtain ⟨current', sound'', still'⟩ := ih sound' later
    rw [current] at current'
    exact ⟨current', sound'', fun off => still' (still off)⟩

theorem settings_eq_ok {raw : Bytes} {s : Settings} (read : settings raw = .ok s) :
    ∃ content rows final, text raw = .ok content ∧ logical [] (lines content) = some rows ∧
      rows.foldlM readLine {} = .ok final ∧ s = ⟨final.found.getD [], final.disabled⟩ := by
  obtain ⟨_, _, read⟩ := bind_eq_ok.mp read
  obtain ⟨content, decoded, read⟩ := bind_eq_ok.mp read
  obtain ⟨rows, shape, read⟩ := bind_eq_ok.mp read
  obtain ⟨final, folded, read⟩ := bind_eq_ok.mp read
  cases read
  exact ⟨content, rows, final, decoded, orInvalid_eq_ok.mp shape, folded, rfl⟩

theorem sound_start : Sound {} := nofun

theorem settings_valid {raw : Bytes} {s : Settings} (read : settings raw = .ok s) :
    ∀ id ∈ s.ids, validId id = true := by
  obtain ⟨_, rows, final, _, _, folded, rfl⟩ := settings_eq_ok read
  have ⟨_, sound, _⟩ := readLines_eq_ok sound_start folded
  cases found : final.found with
  | none => exact nofun
  | some ids => exact (sound ids found).2

/-! ## Devices that are disabled -/

def DWORD : Text := "dword:".toList

/-- In this section the line disables all devices, or one of the vendor. -/
def Disables (current line : Text) : Prop :=
  line.head? ≠ some '[' ∧ ∃ name value, splitOnce line = some (name, value) ∧
    ((current ∈ MAIN ∧ lower name = "\"disablehidraw\"".toList ∧
        ∃ digits n, value = DWORD ++ digits ∧ fromHex (2 ^ 32) digits = some n ∧ n ≠ 0) ∨
      (occurs VENDOR current = true ∧ lower name = "\"hidraw\"".toList ∧
        lower value = "dword:00000000".toList))

theorem readLine_disables {state : Reading} {line : Text} (disables : Disables state.current line) :
    ∃ next, readLine state line = .ok next ∧ next.disabled = true := by
  obtain ⟨start, name, value, cut, how⟩ := disables
  obtain ⟨main, named, digits, n, rfl, read, zero⟩ | ⟨vendor, named, off⟩ := how
  · rw [readLine_value start cut, named]
    unfold readValue
    rw [if_neg fun here => absurd here.2 (by decide), if_pos ⟨main, rfl⟩]
    refine ⟨{ state with disabled := state.disabled || n != 0 }, ?_, ?_⟩
    · exact bind_eq_ok.mpr ⟨digits, orInvalid_eq_ok.mpr (stripPrefix_append _ _),
        bind_eq_ok.mpr ⟨n, orInvalid_eq_ok.mpr read, rfl⟩⟩
    · have changed : (n != 0) = true := bne_iff_ne.mpr zero
      show (state.disabled || n != 0) = true
      rw [changed, Bool.or_true]
  · rw [readLine_value start cut, named]
    unfold readValue
    rw [if_neg fun here => absurd here.2 (by decide), if_neg fun here => absurd here.2 (by decide),
      if_pos ⟨vendor, rfl⟩]
    refine ⟨_, rfl, ?_⟩
    show (state.disabled || lower value == _) = true
    rw [off, beq_self_eq_true, Bool.or_true]

/-- A text with such a line is never merged into. -/
theorem disabled_refused {raw : Bytes} {content line : Text} {before after : List Text}
    (decoded : text raw = .ok content)
    (shape : logical [] (lines content) = some (before ++ line :: after))
    (disables : Disables (before.foldl sectionAfter []) line) :
    ∃ e, mergedAllowlist raw = .error e := by
  cases read : settings raw with
  | error e =>
    refine ⟨e, ?_⟩
    unfold mergedAllowlist
    rw [read]
    rfl
  | ok s =>
    obtain ⟨content', rows, final, decoded', shape', folded, rfl⟩ := settings_eq_ok read
    cases decoded.symm.trans decoded'
    cases shape.symm.trans shape'
    rw [List.foldlM_append] at folded
    obtain ⟨state, first, folded⟩ := bind_eq_ok.mp folded
    rw [List.foldlM_cons] at folded
    obtain ⟨next, second, folded⟩ := bind_eq_ok.mp folded
    have ⟨current, sound, _⟩ := readLines_eq_ok sound_start first
    rw [← current] at disables
    obtain ⟨next', same, off⟩ := readLine_disables disables
    cases second.symm.trans same
    have sound' : Sound next := by
      have ⟨_, found, _⟩ := readLine_eq_ok second
      intro ids here
      rcases found with same | ⟨value, ids', decoded, here'⟩
      · exact sound ids (same ▸ here)
      · rw [here'] at here
        cases here
        exact decode_sound decoded
    have ⟨_, _, still⟩ := readLines_eq_ok sound' folded
    rw [mergedAllowlist_eq read, if_pos (still off)]
    exact ⟨_, rfl⟩

/-! ## The claim of the merge -/

theorem needed_valid : ∀ id ∈ IDS, validId id = true := by decide

/-- A text that says the merged list, in either spelling, needs no second merge. -/
theorem merged_again {raw raw' : Bytes} {s : Settings} {value : Text} (read : settings raw = .ok s)
    (few : (s.ids ++ missing s.ids).length ≤ 48) (exports : Exports raw' value)
    (spelled : value = hexSpelling (s.ids ++ missing s.ids) ∨
      value = strSpelling (s.ids ++ missing s.ids)) : mergedAllowlist raw' = .ok none := by
  have valid : ∀ id ∈ s.ids ++ missing s.ids, validId id = true := by
    intro id there
    rcases List.mem_append.mp there with old | new
    · exact settings_valid read id old
    · exact needed_valid id (List.mem_of_mem_filter new)
  have again := settings_exports exports (decode_spelled valid few spelled)
  rw [mergedAllowlist_eq again, if_neg Bool.false_ne_true]
  dsimp only
  rw [missing_merged, List.append_nil, if_pos few, if_pos rfl]

/-- A list is read from both spellings of it, and merged once unless it is disabled or full. -/
theorem allowlist_merged :
    (∀ ids : List Text, (∀ id ∈ ids, validId id = true) → ids.length ≤ 48 →
      ∀ value, value = hexSpelling ids ∨ value = strSpelling ids →
        decode value = .ok ids ∧ ∀ raw, Exports raw value → settings raw = .ok ⟨ids, false⟩) ∧
    (∀ raw s, settings raw = .ok s → mergedAllowlist raw =
      if s.disabled then .error (.invalid DISABLED)
      else if (s.ids ++ missing s.ids).length ≤ 48 then
        .ok (if missing s.ids = [] then none else some (join (s.ids ++ missing s.ids)))
      else .error (.invalid INVALID)) ∧
    (∀ raw merged, mergedAllowlist raw = .ok (some merged) → ∃ s, settings raw = .ok s ∧
      merged = join (s.ids ++ missing s.ids) ∧ ∀ raw' value, Exports raw' value →
        value = hexSpelling (s.ids ++ missing s.ids) ∨
          value = strSpelling (s.ids ++ missing s.ids) →
        mergedAllowlist raw' = .ok none) ∧
    (∀ raw content before line after, text raw = .ok content →
      logical [] (lines content) = some (before ++ line :: after) →
      Disables (before.foldl sectionAfter []) line → ∃ e, mergedAllowlist raw = .error e) := by
  refine ⟨fun ids valid few value spelled => ?_, fun _ _ => mergedAllowlist_eq, ?_,
    fun _ _ _ _ _ => disabled_refused⟩
  · have decoded := decode_spelled valid few spelled
    exact ⟨decoded, fun raw exports => settings_exports exports decoded⟩
  · intro raw merged done
    obtain ⟨s, read, _⟩ := bind_eq_ok.mp done
    rw [mergedAllowlist_eq read] at done
    split at done
    next => cases done
    next =>
      split at done
      next few =>
        split at done
        next => cases done
        next =>
          cases done
          exact ⟨s, read, rfl, fun raw' value exports spelled =>
            merged_again read few exports spelled⟩
      next => cases done

/-- A registry that disables all devices. -/
def disabledRegistry : String :=
  "[System\\\\CurrentControlSet\\\\Services\\\\winebus]\n\"DisableHidraw\"=dword:00000001\n"

/-- It is read, and nothing is merged into it. -/
theorem disabled_unmerged :
    ¬∀ raw s, settings raw = .ok s → mergedAllowlist raw =
      .ok (if missing s.ids = [] then none else some (join (s.ids ++ missing s.ids))) := by
  intro h
  have read : settings (utf8 disabledRegistry) = .ok ⟨[], true⟩ := rfl
  have merged := h _ _ read
  rw [mergedAllowlist_eq read, if_pos rfl] at merged
  cases merged

end Flightdeck.Winebus
