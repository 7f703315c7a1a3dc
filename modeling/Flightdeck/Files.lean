import Flightdeck.Errors
import Flightdeck.Foundation.Sha2
import Flightdeck.Foundation.TextMap

/-!
# Digests and their spelling
-/

namespace Flightdeck

open Foundation

/-- SHA-256 as an arbitrary fixed function to 32 bytes. -/
class Sha256 where
  digest : Bytes → Bytes
  digest_length (data : Bytes) : (digest data).length = 32

attribute [simp] Sha256.digest_length

/-- The hash function itself, for runs on fixed inputs. -/
@[reducible] def standardSha256 : Sha256 := ⟨Sha2.digest, Sha2.digest_length⟩

def hexDigit (n : UInt8) : Char :=
  if n < 10 then Char.ofNat (48 + n.toNat) else Char.ofNat (87 + n.toNat)

/-- `hex::encode`: two lower-case digits for each byte. -/
def hexEncode (bytes : Bytes) : String :=
  String.ofList (bytes.flatMap fun b => [hexDigit (b / 16), hexDigit (b % 16)])

def sha256 [Sha256] (bytes : Bytes) : String := hexEncode (Sha256.digest bytes)

def isAsciiDigit (b : UInt8) : Bool := 48 ≤ b && b ≤ 57

def isAsciiAlphanumeric (b : UInt8) : Bool :=
  isAsciiDigit b || (65 ≤ b && b ≤ 90) || (97 ≤ b && b ≤ 122)

def hexDigest (value : String) : Bool :=
  (utf8 value).length == 64 &&
    (utf8 value).all fun b => isAsciiDigit b || (97 ≤ b && b ≤ 102)

theorem hexDigit_utf8 {n : UInt8} (hn : n < 16) :
    ∃ b, String.utf8EncodeChar (hexDigit n) = [b] ∧
      (isAsciiDigit b || (97 ≤ b && b ≤ 102)) = true := by
  have hall : ∀ k < 16, ∃ b, String.utf8EncodeChar (hexDigit (UInt8.ofNat k)) = [b] ∧
      (isAsciiDigit b || (97 ≤ b && b ≤ 102)) = true := by
    intro k hk
    interval_cases k <;> exact ⟨_, rfl, by decide⟩
  have h := hall n.toNat (UInt8.lt_iff_toNat_lt.mp hn)
  rwa [UInt8.ofNat_toNat] at h

theorem utf8_hexEncode (bytes : Bytes) :
    (utf8 (hexEncode bytes)).length = 2 * bytes.length ∧
      ∀ b ∈ utf8 (hexEncode bytes), (isAsciiDigit b || (97 ≤ b && b ≤ 102)) = true := by
  unfold hexEncode
  rw [utf8_ofList]
  induction bytes with
  | nil => exact ⟨rfl, nofun⟩
  | cons b bytes ih =>
    have hhigh : b / 16 < 16 := by
      rw [UInt8.lt_iff_toNat_lt, UInt8.toNat_div]
      have := b.toNat_lt
      change b.toNat / 16 < 16
      omega
    have hlow : b % 16 < 16 := by
      rw [UInt8.lt_iff_toNat_lt, UInt8.toNat_mod]
      change b.toNat % 16 < 16
      omega
    obtain ⟨h, hh, hhex⟩ := hexDigit_utf8 hhigh
    obtain ⟨l, hl, hlex⟩ := hexDigit_utf8 hlow
    simp only [List.flatMap_cons, hh, hl, List.cons_append, List.nil_append, List.length_cons, List.forall_mem_cons]
    exact ⟨by omega, hhex, hlex, ih.2⟩

theorem hexDigest_sha256 [Sha256] (bytes : Bytes) : hexDigest (sha256 bytes) = true := by
  obtain ⟨hlength, hall⟩ := utf8_hexEncode (Sha256.digest bytes)
  unfold hexDigest sha256
  rw [hlength, Sha256.digest_length, Bool.and_eq_true, List.all_eq_true]
  exact ⟨rfl, hall⟩
end Flightdeck
