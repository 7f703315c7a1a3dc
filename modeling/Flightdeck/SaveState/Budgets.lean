import Flightdeck.SaveState.Decode

/-!
# The running budgets

`decode` and `encode` subtract what they have used from a limit.  Their loops keep both budgets
within the limits, so no subtraction leaves the naturals, whatever the input.
-/

namespace Flightdeck.SaveState

open Foundation

def NoUnderflow (e : Error) : Prop := e ≠ .arithmetic

/-- The errors with a message. -/
def Told (e : Error) : Prop := ∃ message, e = .invalid message

theorem Told.noUnderflow {e : Error} (told : Told e) : NoUnderflow e := by
  obtain ⟨_, rfl⟩ := told
  exact fun same => by cases same

theorem require_outcome (condition : Bool) :
    Outcome (require condition INVALID) (fun _ => condition = true) Told := by
  cases condition
  · exact ⟨_, rfl⟩
  · rfl

theorem checkedSub_outcome {a b : Nat} (h : b ≤ a) :
    Outcome (checkedSub a b) (fun n => n = a - b) Told := by
  rw [checkedSub_of_le h]
  rfl

theorem nameParts_outcome (container : Bool) (parts : List Bytes) :
    Outcome (nameParts container parts) (fun _ => True) Told := by
  induction parts with
  | nil => trivial
  | cons part rest ih =>
    exact (require_outcome _).bind fun _ _ => (require_outcome _).bind fun _ _ =>
      (require_outcome _).bind fun _ _ => ih

theorem name_outcome (value : String) (container : Bool) :
    Outcome (name value container) (fun _ => True) Told :=
  (require_outcome _).bind fun _ _ => nameParts_outcome container _

theorem take_ensures (size : Nat) :
    Ensures (take size) (fun bytes => bytes.length = size) Told := by
  intro c
  cases h : take size c with
  | ok x =>
    obtain ⟨_, ⟨hlen, -⟩, -⟩ := (accepts_take size c x.1 x.2).mp h
    exact hlen
  | error e =>
    unfold take at h
    split at h <;> cases h
    exact ⟨_, rfl⟩

theorem readU32_ensures : Ensures readU32 (fun _ => True) Told :=
  (take_ensures 4).bind fun _ _ => .pure trivial

theorem readU64_ensures : Ensures readU64 (fun _ => True) Told :=
  (take_ensures 8).bind fun _ _ => .pure trivial

theorem fromUtf8_outcome (bytes : Bytes) :
    Outcome (fromUtf8 bytes) (fun _ => True) Told := by
  unfold fromUtf8
  split
  · trivial
  · exact ⟨_, rfl⟩

theorem readText_ensures (limit : Nat) : Ensures (readText limit) (fun _ => True) Told :=
  readU32_ensures.bind fun _ _ => .lift (require_outcome _) fun _ _ =>
    (take_ensures _).bind fun _ _ => .lift (fromUtf8_outcome _) fun _ _ =>
    .lift (require_outcome _) fun _ _ => .pure trivial

theorem decodeBlob_ensures {b : Container × Nat} (hb : b.2 ≤ QUOTA) :
    Ensures (decodeBlob b) (fun b' => b'.2 ≤ QUOTA) Told := by
  obtain ⟨entry, used⟩ := b
  refine (readText_ensures 256).bind fun key _ => .lift (name_outcome key false) fun _ _ =>
    .lift (require_outcome _) fun _ _ => readU32_ensures.bind fun size _ =>
    .lift (checkedSub_outcome hb) fun left hleft => .lift (require_outcome _) fun _ hsize =>
    (take_ensures _).bind fun bytes _ => .pure ?_
  simp only [decide_eq_true_eq] at hsize hleft
  change used + size.toNat ≤ QUOTA
  change used ≤ QUOTA at hb
  omega

/-- Both budgets of `decode` are within their limits. -/
structure Decoded.Within (d : Decoded) : Prop where
  used : d.used ≤ QUOTA
  blobs : d.blobs ≤ BLOB_LIMIT

theorem decodeContainer_ensures {d : Decoded} (hd : d.Within) :
    Ensures (decodeContainer d) Decoded.Within Told := by
  refine (readText_ensures 256).bind fun key _ => .lift (name_outcome key true) fun _ _ =>
    .lift (require_outcome _) fun _ _ => (readText_ensures 4096).bind fun displayName _ =>
    readU64_ensures.bind fun modified _ => .lift (require_outcome _) fun _ _ =>
    readU32_ensures.bind fun count _ => .lift (checkedSub_outcome hd.blobs) fun left hleft =>
    .lift (require_outcome _) fun _ hcount =>
    (Ensures.forCount (fun _ hb => decodeBlob_ensures hb) _ hd.used).bind fun x hused =>
    .pure ⟨hused, ?_⟩
  simp only [decide_eq_true_eq] at hcount hleft
  have hblobs := hd.blobs
  change d.blobs + count.toNat ≤ BLOB_LIMIT
  omega

theorem decodeBody_ensures : Ensures decodeBody (fun _ => True) Told := by
  rw [decodeBody_eq]
  refine Ensures.bind (Q := Decoded.Within) (readU32_ensures.bind fun _ _ =>
    .lift (require_outcome _) fun _ _ => readU64_ensures.bind fun generation _ =>
    readU32_ensures.bind fun count _ => .lift (require_outcome _) fun _ _ =>
    Ensures.forCount (fun _ hd => decodeContainer_ensures hd) _ ⟨Nat.zero_le _, Nat.zero_le _⟩)
    fun d _ => ?_
  refine Ensures.bind (Q := fun _ => True) (fun _ => trivial) fun reader _ =>
    .lift (require_outcome _) fun _ _ => .pure trivial

theorem decode_outcome [Sha256] (data : Bytes) :
    Outcome (decode data) (fun _ => True) Told := by
  refine (require_outcome _).bind fun _ hdata => ?_
  simp only [Bool.and_eq_true, decide_eq_true_eq] at hdata
  refine (checkedSub_outcome (by omega)).bind fun cut _ => ?_
  have hchecksum : Outcome (require (Sha256.digest (data.splitAt cut).1 == (data.splitAt cut).2)
      CHECKSUM) (fun _ => True) Told := by
    cases Sha256.digest (data.splitAt cut).1 == (data.splitAt cut).2
    · exact ⟨_, rfl⟩
    · trivial
  exact hchecksum.bind fun _ _ => (decodeBody_ensures _).bind fun _ _ => .pure trivial

theorem writeText_outcome (output : Bytes) (value : String) (maximum : Nat) :
    Outcome (writeText output value maximum) (fun _ => True) Told :=
  (require_outcome _).bind fun _ _ => .pure trivial

/-- Both budgets of `encode` are within their limits. -/
structure Encoded.Within (e : Encoded) : Prop where
  used : e.used ≤ QUOTA
  blobs : e.blobs ≤ BLOB_LIMIT

theorem encodeBlob_outcome {e : Encoded} (he : e.Within) (blob : String × Bytes) :
    Outcome (encodeBlob e blob) Encoded.Within Told := by
  refine (name_outcome _ _).bind fun _ _ => (checkedSub_outcome he.used).bind fun left hleft =>
    (require_outcome _).bind fun _ hsize => (writeText_outcome _ _ _).bind fun output _ =>
    .pure ⟨?_, he.blobs⟩
  simp only [decide_eq_true_eq] at hsize hleft
  have hused := he.used
  change e.used + blob.2.length ≤ QUOTA
  omega

theorem encodeContainer_outcome {e : Encoded} (he : e.Within) (entry : String × Container) :
    Outcome (encodeContainer e entry) Encoded.Within Told := by
  refine (name_outcome _ _).bind fun _ _ => (require_outcome _).bind fun _ _ =>
    (checkedSub_outcome he.blobs).bind fun left hleft => (require_outcome _).bind fun _ hcount =>
    (writeText_outcome _ _ _).bind fun _ _ => (writeText_outcome _ _ _).bind fun output _ => ?_
  simp only [decide_eq_true_eq] at hcount hleft
  have hblobs := he.blobs
  have hstart : e.blobs + entry.2.blobs.size ≤ BLOB_LIMIT := by omega
  have hfold (output : Bytes) : Outcome (entry.2.blobs.toList.foldlM encodeBlob
      ⟨output, e.used, e.blobs + entry.2.blobs.size⟩) Encoded.Within Told :=
    Outcome.foldlM (fun _ blob he => encodeBlob_outcome he blob) _ ⟨he.used, hstart⟩
  exact (hfold _).bind fun _ hout => (require_outcome _).bind fun _ _ => .pure hout

theorem encode_outcome [Sha256] (s : State) :
    Outcome (encode s) (fun _ => True) Told :=
  (require_outcome _).bind fun _ _ =>
    (Outcome.foldlM (fun _ entry he => encodeContainer_outcome he entry) _
      ⟨Nat.zero_le _, Nat.zero_le _⟩).bind fun _ _ => .pure trivial

end Flightdeck.SaveState
