import Flightdeck.Foundation.Lines
import Flightdeck.Json.Strict

/-!
# Progress frames

`progress.rs`: the lines by which the download tool tells its progress, each a JSON object, are
decoded from a pipe as they arrive.  The reader takes the latest result whenever it likes.
-/

namespace Flightdeck.Progress

open StrictJson (Bytes Library Kind kind DEPTH)
open StrictJson.Library

def MAX_FRAME := 1024
def MAX_INTEGER := 2 ^ 53 - 1

/-! ## Transfers -/

/-- `Transfer`; its `kind` is always the game's here. -/
structure Transfer where
  received_bytes : Nat
  verified_bytes : Nat
  total_bytes : Option Nat
  completed_files : Option Nat
  total_files : Option Nat
  deriving DecidableEq

def Transfer.valid (self : Transfer) : Bool :=
  ([some self.received_bytes, some self.verified_bytes, self.total_bytes, self.completed_files,
    self.total_files].filterMap id).all (· ≤ MAX_INTEGER) &&
  self.verified_bytes ≤ self.received_bytes &&
  self.total_bytes.all (fun v => 0 < v && self.received_bytes ≤ v) &&
  match self.completed_files, self.total_files with
  | none, none => true
  | some completed, some total => 0 < total && completed ≤ total
  | _, _ => false

structure Frame extends Transfer where
  format : Nat

/-- The members of a frame, in the order of the struct. -/
def FIELDS := ["format", "received_bytes", "verified_bytes", "total_bytes", "completed_files",
  "total_files"]

section parse

variable [Library]

/-- The value of a number without a sign, fraction and exponent. -/
def natural (number : String) : Option Nat :=
  if number.toList.all Char.isDigit then
    some (number.toList.foldl (fun n c => 10 * n + (c.toNat - '0'.toNat)) 0)
  else none

/-- A number below a bound, as an unsigned integer is read. -/
def unsigned (bound : Nat) (text : String) : Option Nat :=
  if kind text = .scalar then
    match parse DEPTH text with
    | some (.number number) => (natural number).filter (· < bound)
    | _ => none
  else none

def u32 : String → Option Nat := unsigned (2 ^ 32)
def u64 : String → Option Nat := unsigned (2 ^ 64)

/-- `required_optional`: an explicit `null` is a meaningful unknown total. -/
def requiredOptional (text : String) : Option (Option Nat) :=
  match kind text, parse DEPTH text with
  | .scalar, some .null => some none
  | _, _ => (u64 text).map some

/-- `Frame` from the texts of its members. -/
def frame (format received verified total completed files : String) : Option Frame := do
  return {
    format := ← u32 format
    received_bytes := ← u64 received
    verified_bytes := ← u64 verified
    total_bytes := ← requiredOptional total
    completed_files := ← requiredOptional completed
    total_files := ← requiredOptional files
  }

/-- An object as a `Frame`: no member is unknown, repeated or missing. -/
def visitMap (rows : List (String × String)) : Option Frame :=
  if (rows.map Prod.fst).Nodup ∧ ∀ key ∈ rows.map Prod.fst, key ∈ FIELDS then do
    frame (← rows.lookup "format") (← rows.lookup "received_bytes")
      (← rows.lookup "verified_bytes") (← rows.lookup "total_bytes")
      (← rows.lookup "completed_files") (← rows.lookup "total_files")
  else none

/-- An array as a `Frame`: a derived `Deserialize` also takes the members in order. -/
def visitSeq : List String → Option Frame
  | [format, received, verified, total, completed, files] =>
    frame format received verified total completed files
  | _ => none

/-- `serde_json::from_slice::<Frame>` -/
def fromSlice (raw : Bytes) : Option Frame := do
  let text ← capture raw
  match kind text with
  | .object => visitMap (← members text)
  | .array => visitSeq (← items text)
  | .scalar => none

def parse (raw : Bytes) : Option Transfer := do
  let value ← fromSlice raw
  if value.format ≠ 1 then none
  else if value.toTransfer.valid then some value.toTransfer else none

end parse

/-! ## `Decoder` -/

/-- A result that has not been taken: of a malformed frame, or of a transfer. -/
structure Decoder where
  buffer : Bytes
  discarding : Bool
  pending : Option (Option Transfer)

instance : Inhabited Decoder := ⟨⟨[], false, none⟩⟩

/-- The first part of the loop: a byte is kept unless the line is too long. -/
def Decoder.keep (self : Decoder) (byte : UInt8) : Decoder :=
  if self.discarding then self
  else if self.buffer.length = MAX_FRAME then
    { buffer := [], discarding := true, pending := some none }
  else { self with buffer := self.buffer ++ [byte] }

/-- The second part: a line break ends the frame. -/
def Decoder.finish [Library] (self : Decoder) : Decoder where
  buffer := []
  discarding := false
  pending := if self.discarding then self.pending else some (parse self.buffer)

def Decoder.consumeByte [Library] (self : Decoder) (byte : UInt8) : Decoder :=
  if byte = NEWLINE then (self.keep byte).finish else self.keep byte

def Decoder.consume [Library] (self : Decoder) (bytes : Bytes) : Decoder :=
  bytes.foldl Decoder.consumeByte self

def Decoder.take (self : Decoder) : Option (Option Transfer) × Decoder :=
  (self.pending, { self with pending := none })

/-! ## Runs -/

inductive Call where
  | consume (bytes : Bytes)
  | take

/-- What the calls of `take` return. -/
def taken [Library] : Decoder → List Call → List (Option (Option Transfer))
  | _, [] => []
  | decoder, .consume bytes :: calls => taken (decoder.consume bytes) calls
  | decoder, .take :: calls => decoder.take.1 :: taken decoder.take.2 calls

/-- The decoder after the calls. -/
def after [Library] (decoder : Decoder) (calls : List Call) : Decoder :=
  calls.foldl (fun decoder call =>
    match call with
    | .consume bytes => decoder.consume bytes
    | .take => decoder.take.2) decoder

/-! ## Reference -/

/-- A frame that has ended, or grown too long. -/
inductive Piece where
  | line (raw : Bytes)
  | oversized

/-- A line without its line break. -/
def piece (line : Bytes) : Piece :=
  if line.length < MAX_FRAME then .line (line ++ [NEWLINE]) else .oversized

/-- The frames of a stream, in order. -/
def pieces (stream : Bytes) : List Piece :=
  (cutLines NEWLINE stream).1.map piece ++
    if MAX_FRAME < (cutLines NEWLINE stream).2.length then [.oversized] else []

def Piece.result [Library] : Piece → Option Transfer
  | .line raw => parse raw
  | .oversized => none

/-- The latest frame at each call of `take`, if there is one since the previous call. -/
def latest : Bytes → Bytes → List Call → List (Option Piece)
  | _, _, [] => []
  | seen, stream, .consume bytes :: calls => latest seen (stream ++ bytes) calls
  | seen, stream, .take :: calls =>
    ((pieces stream).drop (pieces seen).length).getLast? :: latest stream stream calls

/-- A line that is a JSON object with each member of a frame once. -/
def IsObject [Library] (raw : Bytes) : Prop :=
  ∃ text rows, capture raw = some text ∧ kind text = .object ∧ members text = some rows ∧
    (rows.map Prod.fst).Perm FIELDS

/-- Framing is exact: what is taken is what the reference gives, no more than a frame is kept, and
what is delivered is a valid transfer from an object. -/
def Exact [Library] (calls : List Call) : Prop :=
  taken default calls = (latest [] [] calls).map (·.map Piece.result) ∧
  (∀ done, done <+: calls → (after default done).buffer.length ≤ MAX_FRAME) ∧
  ∀ raw transfer, some (.line raw) ∈ latest [] [] calls → parse raw = some transfer →
    transfer.valid = true ∧ IsObject raw

/-- A line that is a JSON array. -/
def IsArray [Library] (raw : Bytes) : Prop := ∃ text, capture raw = some text ∧ kind text = .array

/-! ## Frames of a stream -/

section frames

variable {stream : Bytes}

/-- The line that has not ended. -/
abbrev rest (stream : Bytes) : Bytes := (cutLines NEWLINE stream).2

theorem pieces_newline : pieces (stream ++ [NEWLINE]) =
    pieces stream ++ if MAX_FRAME < (rest stream).length then [] else [piece (rest stream)] := by
  unfold pieces
  rw [cutLines_sep]
  by_cases long : MAX_FRAME < (rest stream).length
  · have cut : piece (rest stream) = .oversized := if_neg (by omega)
    simp [long, cut]
  · simp [long]

theorem pieces_other {byte : UInt8} (other : byte ≠ NEWLINE) : pieces (stream ++ [byte]) =
    pieces stream ++ if (rest stream).length = MAX_FRAME then [.oversized] else [] := by
  unfold pieces
  rw [cutLines_other NEWLINE other]
  by_cases full : (rest stream).length = MAX_FRAME
  · simp [full]
  · by_cases long : MAX_FRAME < (rest stream).length
    · have longer : MAX_FRAME < (rest stream).length + 1 := by omega
      simp [full, long, longer]
    · have shorter : ¬ MAX_FRAME < (rest stream).length + 1 := by omega
      simp [full, long, shorter]

/-- The frames since another moment: the last one is the latest. -/
theorem getLast?_drop_snoc {α : Type} {all : List α} {n : Nat} (within : n ≤ all.length) (x : α) :
    ((all ++ [x]).drop n).getLast? = some x := by
  rw [List.drop_append_of_le_length within, List.getLast?_concat]

theorem key_of_lookup {rows : List (String × String)} {key text : String}
    (found : rows.lookup key = some text) : key ∈ rows.map Prod.fst :=
  List.mem_map.mpr ⟨_, StrictJson.mem_of_lookup found, rfl⟩

end frames

section decoding

variable [Library]

/-- A decoder that has read a stream, and was asked when it had seen an earlier part. -/
structure Decodes (seen stream : Bytes) (decoder : Decoder) : Prop where
  buffer : decoder.buffer = if MAX_FRAME < (rest stream).length then [] else rest stream
  discarding : decoder.discarding = true ↔ MAX_FRAME < (rest stream).length
  pending : decoder.pending =
    ((pieces stream).drop (pieces seen).length).getLast?.map Piece.result
  grown : (pieces seen).length ≤ (pieces stream).length

theorem Decodes.bounded {seen stream : Bytes} {decoder : Decoder}
    (decodes : Decodes seen stream decoder) : decoder.buffer.length ≤ MAX_FRAME := by
  rw [decodes.buffer]
  split
  · exact Nat.zero_le _
  · omega

/-- A line that has become too long is dropped, and what follows is passed over. -/
theorem Decodes.overflow {seen stream : Bytes} {decoder : Decoder} {byte : UInt8}
    (decodes : Decodes seen stream decoder) (full : (rest stream).length = MAX_FRAME) :
    decoder.keep byte = { buffer := [], discarding := true, pending := some none } := by
  have kept : ¬ decoder.discarding = true := by
    rw [decodes.discarding]
    omega
  have long : decoder.buffer.length = MAX_FRAME := by
    rw [decodes.buffer, if_neg (by omega)]
    exact full
  rw [Decoder.keep, if_neg kept, if_pos long]

theorem Decodes.passes {seen stream : Bytes} {decoder : Decoder} {byte : UInt8}
    (decodes : Decodes seen stream decoder) (long : MAX_FRAME < (rest stream).length) :
    decoder.keep byte = decoder := if_pos (decodes.discarding.mpr long)

theorem Decodes.keeps {seen stream : Bytes} {decoder : Decoder} {byte : UInt8}
    (decodes : Decodes seen stream decoder) (short : (rest stream).length < MAX_FRAME) :
    decoder.keep byte = { decoder with buffer := rest stream ++ [byte] } := by
  have kept : ¬ decoder.discarding = true := by
    rw [decodes.discarding]
    omega
  have same : decoder.buffer = rest stream := by
    rw [decodes.buffer, if_neg (by omega)]
  have room : ¬ decoder.buffer.length = MAX_FRAME := by
    rw [same]
    omega
  rw [Decoder.keep, if_neg kept, if_neg room, same]

/-- One byte.  The cases are those of the line that it continues: still short, exactly full, or
already too long. -/
theorem Decodes.consumeByte {seen stream : Bytes} {decoder : Decoder}
    (decodes : Decodes seen stream decoder) (byte : UInt8) :
    Decodes seen (stream ++ [byte]) (decoder.consumeByte byte) := by
  have grown := decodes.grown
  by_cases ends : byte = NEWLINE
  · subst ends
    have cut : rest (stream ++ [NEWLINE]) = [] := by
      rw [rest, cutLines_sep]
    rw [Decoder.consumeByte, if_pos rfl]
    rcases Nat.lt_trichotomy (rest stream).length MAX_FRAME with short | full | long
    · have whole : piece (rest stream) = .line (rest stream ++ [NEWLINE]) := if_pos short
      have kept : ¬ decoder.discarding = true := by
        rw [decodes.discarding]
        omega
      have added : pieces (stream ++ [NEWLINE]) =
          pieces stream ++ [.line (rest stream ++ [NEWLINE])] := by
        rw [pieces_newline, if_neg (by omega), whole]
      rw [decodes.keeps short]
      constructor
      · simp [Decoder.finish, cut]
      · simp [Decoder.finish, cut]
      · rw [added, getLast?_drop_snoc grown]
        exact if_neg kept
      · rw [added, List.length_append]
        omega
    · have huge : piece (rest stream) = .oversized := if_neg (by omega)
      have added : pieces (stream ++ [NEWLINE]) = pieces stream ++ [.oversized] := by
        rw [pieces_newline, if_neg (by omega), huge]
      rw [decodes.overflow full]
      constructor
      · simp [Decoder.finish, cut]
      · simp [Decoder.finish, cut]
      · rw [added, getLast?_drop_snoc grown]
        rfl
      · rw [added, List.length_append]
        omega
    · have added : pieces (stream ++ [NEWLINE]) = pieces stream := by
        rw [pieces_newline, if_pos long, List.append_nil]
      rw [decodes.passes long]
      constructor
      · simp [Decoder.finish, cut]
      · simp [Decoder.finish, cut]
      · rw [added, ← decodes.pending]
        exact if_pos (decodes.discarding.mpr long)
      · rw [added]
        exact grown
  · have cut : rest (stream ++ [byte]) = rest stream ++ [byte] := by
      rw [rest, cutLines_other NEWLINE ends]
    have length : (rest (stream ++ [byte])).length = (rest stream).length + 1 := by
      rw [cut, List.length_append, List.length_singleton]
    rw [Decoder.consumeByte, if_neg ends]
    rcases Nat.lt_trichotomy (rest stream).length MAX_FRAME with short | full | long
    · have added : pieces (stream ++ [byte]) = pieces stream := by
        rw [pieces_other ends, if_neg (by omega), List.append_nil]
      rw [decodes.keeps short]
      constructor
      · rw [if_neg (by omega), cut]
      · show decoder.discarding = true ↔ _
        rw [decodes.discarding]
        omega
      · rw [added, ← decodes.pending]
      · rw [added]
        exact grown
    · have added : pieces (stream ++ [byte]) = pieces stream ++ [.oversized] := by
        rw [pieces_other ends, if_pos full]
      rw [decodes.overflow full]
      constructor
      · rw [if_pos (by omega)]
      · show true = true ↔ _
        simp only [true_iff]
        omega
      · rw [added, getLast?_drop_snoc grown]
        rfl
      · rw [added, List.length_append]
        omega
    · have added : pieces (stream ++ [byte]) = pieces stream := by
        rw [pieces_other ends, if_neg (by omega), List.append_nil]
      rw [decodes.passes long]
      constructor
      · rw [decodes.buffer, if_pos long, if_pos (by omega)]
      · rw [decodes.discarding]
        omega
      · rw [added, ← decodes.pending]
      · rw [added]
        exact grown

theorem Decodes.consume {seen stream : Bytes} {decoder : Decoder}
    (decodes : Decodes seen stream decoder) (bytes : Bytes) :
    Decodes seen (stream ++ bytes) (decoder.consume bytes) := by
  induction bytes generalizing stream decoder with
  | nil => simpa [Decoder.consume] using decodes
  | cons byte bytes ih => simpa [Decoder.consume] using ih (decodes.consumeByte byte)

theorem Decodes.take {seen stream : Bytes} {decoder : Decoder}
    (decodes : Decodes seen stream decoder) : Decodes stream stream decoder.take.2 where
  buffer := decodes.buffer
  discarding := decodes.discarding
  pending := by
    rw [List.drop_length]
    rfl
  grown := Nat.le_refl _

theorem decodes_default : Decodes [] [] default where
  buffer := rfl
  discarding := by decide
  pending := rfl
  grown := Nat.le_refl _

/-- However the stream is cut and whenever a result is taken, it is the reference's. -/
theorem Decodes.taken {seen stream : Bytes} {decoder : Decoder}
    (decodes : Decodes seen stream decoder) (calls : List Call) :
    taken decoder calls = (latest seen stream calls).map (·.map Piece.result) := by
  induction calls generalizing seen stream decoder with
  | nil => rfl
  | cons call calls ih =>
    cases call with
    | consume bytes => exact ih (decodes.consume bytes)
    | take =>
      show decoder.pending :: _ = _
      rw [ih decodes.take, decodes.pending]
      rfl

theorem Decodes.after {seen stream : Bytes} {decoder : Decoder}
    (decodes : Decodes seen stream decoder) (calls : List Call) :
    ∃ seen stream, Decodes seen stream (after decoder calls) := by
  induction calls generalizing seen stream decoder with
  | nil => exact ⟨seen, stream, decodes⟩
  | cons call calls ih =>
    cases call with
    | consume bytes => exact ih (decodes.consume bytes)
    | take => exact ih decodes.take

/-! ## Frames -/

theorem parse_valid {raw : Bytes} {transfer : Transfer} (parsed : parse raw = some transfer) :
    transfer.valid = true := by
  cases read : fromSlice raw with
  | none => simp [parse, read] at parsed
  | some value =>
    simp only [parse, read, Option.bind_eq_bind, Option.bind_some] at parsed
    split at parsed
    · exact absurd parsed nofun
    · split at parsed
      · cases parsed
        assumption
      · exact absurd parsed nofun

/-- A frame that an object gives has each member once. -/
theorem visitMap_perm {rows : List (String × String)} {value : Frame}
    (read : visitMap rows = some value) : (rows.map Prod.fst).Perm FIELDS := by
  unfold visitMap at read
  split at read
  · rename_i known
    simp only [Option.bind_eq_bind, Option.bind_eq_some_iff] at read
    obtain ⟨_, format, _, received, _, verified, _, total, _, completed, _, files, _⟩ := read
    apply (List.perm_ext_iff_of_nodup known.1 (by decide)).mpr
    intro key
    constructor
    · exact known.2 key
    · intro listed
      simp only [FIELDS, List.mem_cons, List.not_mem_nil, or_false] at listed
      rcases listed with rfl | rfl | rfl | rfl | rfl | rfl
      · exact key_of_lookup format
      · exact key_of_lookup received
      · exact key_of_lookup verified
      · exact key_of_lookup total
      · exact key_of_lookup completed
      · exact key_of_lookup files
  · exact absurd read nofun

/-- What is accepted is an object with each member once, or an array. -/
theorem isObject_or_isArray {raw : Bytes} {transfer : Transfer}
    (parsed : parse raw = some transfer) : IsObject raw ∨ IsArray raw := by
  cases read : fromSlice raw with
  | none => simp [parse, read] at parsed
  | some value =>
    cases captured : capture raw with
    | none => simp [fromSlice, captured] at read
    | some text =>
      cases shape : kind text with
      | object =>
        cases found : members text with
        | none => simp [fromSlice, captured, shape, found] at read
        | some rows =>
          left
          have read : visitMap rows = some value := by
            simpa [fromSlice, captured, shape, found] using read
          exact ⟨text, rows, captured, shape, found, visitMap_perm read⟩
      | array => exact .inr ⟨text, captured, shape⟩
      | scalar => simp [fromSlice, captured, shape] at read

theorem not_isObject {raw : Bytes} (array : IsArray raw) : ¬ IsObject raw := by
  intro ⟨text, _, captured, shape, _⟩
  have ⟨other, also, differs⟩ := array
  cases captured.symm.trans also
  exact absurd (shape.symm.trans differs) nofun

/-- The framing is exact unless a frame that is taken is an array of the members. -/
theorem framing_exact (calls : List Call) :
    Exact calls ↔ ∀ raw, some (.line raw) ∈ latest [] [] calls → IsArray raw →
      parse raw = none := by
  constructor
  · intro exact' raw there array
    cases parsed : parse raw with
    | none => rfl
    | some transfer =>
      exact absurd (exact'.2.2 raw transfer there parsed).2 (not_isObject array)
  · intro noArray
    refine ⟨decodes_default.taken calls, ?_, ?_⟩
    · intro done _
      have ⟨_, _, decodes⟩ := decodes_default.after done
      exact decodes.bounded
    · intro raw transfer there parsed
      refine ⟨parse_valid parsed, ?_⟩
      rcases isObject_or_isArray parsed with object | array
      · exact object
      · exact absurd (parsed.symm.trans (noArray raw there array)) nofun

end decoding

/-! ## An array -/

def array := "[1,40,20,100,1,3]"

def arrayTables : StrictJson.Tables where
  members := []
  items := [(array, ["1", "40", "20", "100", "1", "3"])]
  scalars := ["1", "40", "20", "100", "3"].map fun number => (number, .number number)

/-- A library that knows the array, with a line break after it. -/
@[reducible] def arrayLibrary : Library where
  capture bytes := if StrictJson.utf8 (array ++ "\n") = bytes then some array else none
  members text := arrayTables.members.lookup text
  items text := arrayTables.items.lookup text
  parse := arrayTables.parse
  isFinite _ := true

attribute [local instance] arrayLibrary

theorem array_taken : ¬ ∀ calls, Exact calls := by
  intro all
  let line := StrictJson.utf8 (array ++ "\n")
  have exact' := (framing_exact [.consume line, .take]).mp (all _)
  have reported : latest [] [] [.consume line, .take] = [some (.line line)] := by rfl
  have refused := exact' line (by simp [reported]) ⟨array, if_pos rfl, by rfl⟩
  have accepted : parse line = some ⟨40, 20, some 100, some 1, some 3⟩ := by rfl
  exact absurd (accepted.symm.trans refused) nofun

end Flightdeck.Progress
