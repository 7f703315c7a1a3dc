import Flightdeck.Foundation.Memory
import Flightdeck.Foundation.Outcome
import Flightdeck.HResults
import Flightdeck.Errors

/-!
# Packed save blobs

`GameSaveBridge.cpp` gives the blobs of a container to the game in one buffer: a table with an entry
for each blob, and after it the names and the data.  One function computes the size, another one
writes.
-/

namespace Flightdeck.GameSave

open Foundation

structure Blob where
  name : Bytes
  data : Bytes

def UINT32_MAX : Nat := 2 ^ 32 - 1

def SIZE_MAX : Nat := 2 ^ 64 - 1

/-- `sizeof(XGameSaveBlob)`: a pointer, the size with four bytes of padding, and a pointer. -/
def ENTRY : Nat := 24

def SIZE_OFFSET : Nat := 8

def DATA_OFFSET : Nat := 16

/-- `alignof(XGameSaveBlob)` -/
def ALIGN : Nat := 8

def E_POINTER : HResult := 0x80004003

def E_INVALIDARG : HResult := 0x80070057

/-- `HRESULT_FROM_WIN32(ERROR_ARITHMETIC_OVERFLOW)` -/
def ARITHMETIC_OVERFLOW : HResult := 0x80070216

def BUFFER_TOO_SMALL : HResult := 0x80830007

/-- Arithmetic of `SIZE_T` and of addresses. -/
def wrap (n : Nat) : Nat := n % 2 ^ 64

/-! ## `XodusGameSavePackedBlobSize` -/

/-- The body of the loop. -/
def addBlob (size : Nat) (blob : Blob) : Except HResult Nat := do
  require (!blob.name.contains 0 && blob.data.length ≤ UINT32_MAX) E_INVALIDARG
  require (blob.name.length < SIZE_MAX - size) ARITHMETIC_OVERFLOW
  let size := wrap (size + (blob.name.length + 1))
  require (blob.data.length ≤ SIZE_MAX - size) ARITHMETIC_OVERFLOW
  return wrap (size + blob.data.length)

/-- The size that is reported; with an error it is zero. -/
def packedBlobSize (blobs : List Blob) : Except HResult Nat := do
  require (blobs.length ≤ UINT32_MAX && blobs.length ≤ SIZE_MAX / ENTRY) E_INVALIDARG
  blobs.foldlM addBlob (wrap (blobs.length * ENTRY))

/-! ## `XodusGameSavePackBlobs` -/

/-- What a call reports and writes; without a place for the count none is reported. -/
structure Packed where
  hr : HResult
  count : Option Nat
  stores : List Store

/-- The loop over the blobs from one on, with the address of the buffer and the cursor. -/
def packFrom (out : Nat) : Nat → Nat → List Blob → List Store
  | _, _, [] => []
  | i, cursor, blob :: blobs =>
    ⟨wrap (out + ENTRY * i), leBytes 8 cursor⟩ ::
    ⟨wrap (out + ENTRY * i + SIZE_OFFSET), leBytes 4 (blob.data.length % 2 ^ 32)⟩ ::
    ⟨cursor, blob.name ++ [0]⟩ ::
    ⟨wrap (out + ENTRY * i + DATA_OFFSET), leBytes 8 (wrap (cursor + (blob.name.length + 1)))⟩ ::
    ⟨wrap (cursor + (blob.name.length + 1)), blob.data⟩ ::
    packFrom out (i + 1)
      (wrap (wrap (cursor + (blob.name.length + 1)) + blob.data.length)) blobs

/-- `out` is an address, zero for none; `counts` is whether there is a place for the count. -/
def packBlobs (blobs : List Blob) (capacity out : Nat) (counts : Bool) : Packed :=
  if !counts then ⟨E_POINTER, none, []⟩
  else match packedBlobSize blobs with
    | .error hr => ⟨hr, some 0, []⟩
    | .ok required =>
      if capacity < required then ⟨BUFFER_TOO_SMALL, some 0, []⟩
      else if required ≠ 0 ∧ out = 0 then ⟨E_POINTER, some 0, []⟩
      else if required ≠ 0 ∧ out % ALIGN ≠ 0 then ⟨E_INVALIDARG, some 0, []⟩
      else if required = 0 then ⟨S_OK, some 0, []⟩
      else ⟨S_OK, some (blobs.length % 2 ^ 32),
        packFrom out 0 (wrap (out + blobs.length * ENTRY)) blobs⟩

/-! ## The size -/

def blobSize (blob : Blob) : Nat := blob.name.length + 1 + blob.data.length

/-- The names with their terminators and the data. -/
def payload (blobs : List Blob) : Nat := (blobs.map blobSize).sum

def total (blobs : List Blob) : Nat := ENTRY * blobs.length + payload blobs

/-- A blob that can be packed. -/
def Packable (blob : Blob) : Prop := 0 ∉ blob.name ∧ blob.data.length ≤ UINT32_MAX

theorem addBlob_eq_ok {size next : Nat} {blob : Blob} (fits : size ≤ SIZE_MAX) :
    addBlob size blob = .ok next ↔
      Packable blob ∧ size + blobSize blob ≤ SIZE_MAX ∧ next = size + blobSize blob := by
  have limit : SIZE_MAX + 1 = 2 ^ 64 := by decide
  have small {n : Nat} (bound : n ≤ SIZE_MAX) : wrap n = n :=
    Nat.mod_eq_of_lt (by rw [← limit]; exact Nat.lt_succ_of_le bound)
  unfold addBlob Packable blobSize
  rw [bind_eq_ok]
  constructor
  · intro ⟨_, packable, rest⟩
    have ⟨_, named, rest⟩ := bind_eq_ok.mp rest
    rw [require_eq_ok, decide_eq_true_eq] at named
    have first : wrap (size + (blob.name.length + 1)) = size + (blob.name.length + 1) :=
      small (by omega)
    have ⟨_, held, done⟩ := bind_eq_ok.mp rest
    rw [require_eq_ok, decide_eq_true_eq, first] at held
    have second : wrap (size + (blob.name.length + 1) + blob.data.length) =
        size + (blob.name.length + 1) + blob.data.length := small (by omega)
    rw [first, second] at done
    rw [require_eq_ok] at packable
    refine ⟨by simpa using packable, by omega, ?_⟩
    rw [← Except.ok.inj done]
    omega
  · intro ⟨packable, bound, same⟩
    have first : wrap (size + (blob.name.length + 1)) = size + (blob.name.length + 1) :=
      small (by omega)
    have second : wrap (size + (blob.name.length + 1) + blob.data.length) =
        size + (blob.name.length + 1) + blob.data.length := small (by omega)
    refine ⟨(), ?_, bind_eq_ok.mpr ⟨(), ?_, bind_eq_ok.mpr ⟨(), ?_, ?_⟩⟩⟩
    · rw [require_eq_ok]
      simpa using packable
    · rw [require_eq_ok, decide_eq_true_eq]
      omega
    · rw [require_eq_ok, decide_eq_true_eq, first]
      omega
    · rw [first, second, same]
      show Except.ok _ = Except.ok _
      rw [Nat.add_assoc size]

theorem addBlobs_eq_ok {size n : Nat} {blobs : List Blob} (fits : size ≤ SIZE_MAX) :
    blobs.foldlM addBlob size = .ok n ↔
      (∀ blob ∈ blobs, Packable blob) ∧ size + payload blobs ≤ SIZE_MAX ∧
        n = size + payload blobs := by
  induction blobs generalizing size with
  | nil =>
    constructor
    · intro done
      rw [← Except.ok.inj done]
      exact ⟨by nofun, fits, rfl⟩
    · intro ⟨_, _, same⟩
      rw [same]
      rfl
  | cons blob blobs ih =>
    have sum : payload (blob :: blobs) = blobSize blob + payload blobs := List.sum_cons
    rw [List.foldlM_cons, bind_eq_ok, sum, List.forall_mem_cons]
    constructor
    · intro ⟨next, first, rest⟩
      have ⟨packable, bound, same⟩ := (addBlob_eq_ok fits).mp first
      rw [same] at rest
      have ⟨later, held, done⟩ := (ih bound).mp rest
      exact ⟨⟨packable, later⟩, by omega, by omega⟩
    · intro ⟨⟨packable, later⟩, held, done⟩
      refine ⟨size + blobSize blob, ?_, ?_⟩
      · exact (addBlob_eq_ok fits).mpr ⟨packable, by omega, rfl⟩
      · exact (ih (by omega)).mpr ⟨later, by omega, by omega⟩

/-- The size is the sum of its parts, if it is defined, and no addition wraps around. -/
theorem packedBlobSize_eq_ok {blobs : List Blob} {n : Nat} :
    packedBlobSize blobs = .ok n ↔
      blobs.length ≤ UINT32_MAX ∧ (∀ blob ∈ blobs, Packable blob) ∧ total blobs ≤ SIZE_MAX ∧
        n = total blobs := by
  have table (short : blobs.length ≤ UINT32_MAX) : blobs.length * ENTRY ≤ SIZE_MAX ∧
      wrap (blobs.length * ENTRY) = ENTRY * blobs.length := by
    have bound : blobs.length * ENTRY ≤ UINT32_MAX * ENTRY := Nat.mul_le_mul_right _ short
    have limit : UINT32_MAX * ENTRY ≤ SIZE_MAX := by decide
    have range : SIZE_MAX < 2 ^ 64 := by decide
    exact ⟨by omega, by rw [wrap, Nat.mod_eq_of_lt (by omega), Nat.mul_comm]⟩
  unfold packedBlobSize total
  rw [bind_eq_ok]
  constructor
  · intro ⟨_, short, rest⟩
    rw [require_eq_ok, Bool.and_eq_true, decide_eq_true_eq] at short
    have ⟨fits, same⟩ := table short.1
    rw [same] at rest
    have done := (addBlobs_eq_ok (by rw [Nat.mul_comm]; exact fits)).mp rest
    exact ⟨short.1, done⟩
  · intro ⟨short, done⟩
    have ⟨fits, same⟩ := table short
    refine ⟨(), ?_, ?_⟩
    · have all : blobs.length ≤ SIZE_MAX / ENTRY := short.trans (by decide)
      rw [require_eq_ok, Bool.and_eq_true, decide_eq_true_eq, decide_eq_true_eq]
      exact ⟨short, all⟩
    · rw [same]
      exact (addBlobs_eq_ok (by rw [Nat.mul_comm]; exact fits)).mpr done

end Flightdeck.GameSave
