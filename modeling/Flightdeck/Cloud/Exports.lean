import Flightdeck.Cloud.Journal

/-!
# Exports and backups

What an export tells of the file it was made from, and what a backup of it holds.
-/

namespace Flightdeck.Cloud

open Foundation SaveState

theorem simpleUuid_utf8 (n : Nat) :
    (utf8 (simpleUuid n)).length = 32 ∧
      ∀ b ∈ utf8 (simpleUuid n), (isAsciiDigit b || (97 ≤ b && b ≤ 102)) = true := by
  have h := utf8_hexEncode (leBytes 16 n)
  rw [leBytes_length] at h
  exact h

/-- Any start followed by a UUID is an identifier. -/
theorem identifier_uuid (start : String) (n : Nat) :
    identifier (start ++ simpleUuid n) start = true := by
  obtain ⟨hlength, hall⟩ := simpleUuid_utf8 n
  unfold identifier
  simp only [utf8_append, List.drop_left, hlength, Bool.and_eq_true, List.all_eq_true]
  exact ⟨⟨List.isPrefixOf_iff_prefix.mpr (List.prefix_append _ _), rfl⟩, hall⟩

theorem identifier_simpleUuid (n : Nat) : identifier (simpleUuid n) "" = true := by
  have h := identifier_uuid "" n
  rwa [String.empty_append] at h

theorem sha256_ne_missing [Sha256] (bytes : Bytes) : sha256 bytes ≠ "missing" := by
  intro h
  have hhex := hexDigest_sha256 bytes
  rw [h] at hhex
  exact absurd hhex (by decide)

namespace Session

/-- Only backups were added. -/
def Extends (disk disk' : Disk) : Prop :=
  ∃ backups, disk' = { disk with backups } ∧ Included disk.backups backups

theorem Extends.refl (disk : Disk) : Extends disk disk := ⟨disk.backups, rfl, Included.refl _⟩

theorem Extends.trans {a b c : Disk} (hab : Extends a b) (hbc : Extends b c) : Extends a c := by
  obtain ⟨bs, rfl, hb⟩ := hab
  obtain ⟨cs, rfl, hc⟩ := hbc
  exact ⟨cs, rfl, hb.trans hc⟩

theorem Extends.insert {disk : Disk} {id : String} (b : Import.Backup)
    (h : disk.backups.contains id = false) :
    Extends disk { disk with backups := disk.backups.insert id b } :=
  ⟨_, rfl, Included.insert b h⟩

variable [Sha256]

theorem rawDigest_eq_missing {raw : Option Bytes} : Import.rawDigest raw = "missing" ↔ raw = none := by
  cases raw with
  | none => exact ⟨fun _ => rfl, fun _ => rfl⟩
  | some bytes =>
    exact ⟨fun h => absurd h (sha256_ne_missing bytes), nofun⟩

theorem missingOrDigest_rawDigest (raw : Option Bytes) :
    missingOrDigest (Import.rawDigest raw) = true := by
  cases raw with
  | none => rfl
  | some bytes =>
    unfold missingOrDigest Import.rawDigest
    rw [Option.map_some, Option.getD_some, hexDigest_sha256, Bool.or_true]

theorem digest_hex {state : State} {d : String} (h : Import.digest state = .ok d) :
    hexDigest d = true :=
  contentDigest_hex (mapError_eq_ok.mp h)

theorem encode_length {state : State} {data : Bytes} (h : Import.encode state = .ok data) :
    data.length ≤ Import.MAX_STATE := by
  obtain ⟨hrows, hlength, rfl⟩ := encode_eq_ok.mp (mapError_eq_ok.mp h)
  rw [frame_length]
  unfold Import.MAX_STATE
  omega

/-- An export as `export_local` builds it, from the file that was there at that time. -/
def LocalExport.Made (e : LocalExport) : Prop := ∃ scope disk, exportFrom scope disk = .ok e

/-- What an export tells of the file `raw`. -/
structure LocalExport.Of (e : LocalExport) (raw : Option Bytes) (state : State) : Prop where
  length : raw.all (·.length ≤ Import.MAX_STATE) = true
  decoded : Import.decodeOption raw = .ok state
  rawDigest : e.rawDigest = Import.rawDigest raw
  contentDigest : Import.digest state = .ok e.contentDigest
  generation : e.generation = state.generation
  existing : ∀ bytes, raw = some bytes → e.encoded = bytes
  missing : raw = none → Import.encode state = .ok e.encoded

theorem Disk.state_eq_ok {disk : Disk} {raw : Option Bytes} {state : State} :
    disk.state = .ok (raw, state) ↔ disk.enabled = true ∧
      disk.stateBin.all (·.length ≤ Import.MAX_STATE) = true ∧ raw = disk.stateBin ∧
      Import.decodeOption disk.stateBin = .ok state := by
  unfold Disk.state
  simp only [bind_eq_ok, require_ok, pure_eq_ok, Prod.mk.injEq]
  constructor
  · rintro ⟨_, henabled, _, hlength, _, hstate, rfl, rfl⟩
    exact ⟨henabled, hlength, rfl, hstate⟩
  · rintro ⟨henabled, hlength, rfl, hstate⟩
    exact ⟨(), henabled, (), hlength, _, hstate, rfl, rfl⟩

theorem exportFrom_eq_ok {scope : Scope} {disk : Disk} {e : LocalExport}
    (h : exportFrom scope disk = .ok e) :
    scope.namespace = .ok e.namespace ∧ e.binding = scope.binding ∧
      ∃ state, disk.state = .ok (disk.stateBin, state) ∧ e.Of disk.stateBin state := by
  obtain ⟨«namespace», hnamespace, h⟩ := bind_eq_ok.mp h
  obtain ⟨⟨raw, state⟩, hstate, h⟩ := bind_eq_ok.mp h
  obtain ⟨digest, hdigest, h⟩ := bind_eq_ok.mp h
  obtain ⟨-, hlength, rfl, hdecode⟩ := Disk.state_eq_ok.mp hstate
  cases hraw : disk.stateBin with
  | none =>
    rw [hraw] at h hlength hdecode hstate
    obtain ⟨encoded, hencoded, h⟩ := bind_eq_ok.mp h
    cases h
    exact ⟨hnamespace, rfl, state, hstate, hlength, hdecode, rfl, hdigest, rfl, nofun,
      fun _ => hencoded⟩
  | some bytes =>
    rw [hraw] at h hlength hdecode hstate
    cases h
    exact ⟨hnamespace, rfl, state, hstate, hlength, hdecode, rfl, hdigest, rfl,
      fun _ heq => Option.some.inj heq, nofun⟩

variable {e : LocalExport} {raw : Option Bytes} {state : State}

theorem LocalExport.Made.of (h : e.Made) : ∃ raw state, e.Of raw state := by
  obtain ⟨scope, disk, h⟩ := h
  obtain ⟨-, -, state, -, h⟩ := exportFrom_eq_ok h
  exact ⟨disk.stateBin, state, h⟩

namespace LocalExport.Of

theorem raw_eq (h : e.Of raw state) : Flow.LocalExport.raw e = raw := by
  unfold Flow.LocalExport.raw
  rw [h.rawDigest]
  cases raw with
  | none => exact if_pos rfl
  | some bytes =>
    have hexists : Import.rawDigest (some bytes) ≠ "missing" :=
      mt rawDigest_eq_missing.mp (Option.some_ne_none bytes)
    rw [if_neg hexists, h.existing bytes rfl]

theorem decode_encoded (h : e.Of raw state) : Import.decode e.encoded = .ok state := by
  cases raw with
  | none =>
    have hencode := mapError_eq_ok.mp (h.missing rfl)
    have hstate : state = {} := (Except.ok.inj h.decoded).symm
    exact mapError_eq_ok.mpr (decode_encode hencode)
  | some bytes =>
    rw [h.existing bytes rfl]
    exact h.decoded

theorem encoded_length (h : e.Of raw state) : e.encoded.length ≤ Import.MAX_STATE := by
  cases raw with
  | none => exact encode_length (h.missing rfl)
  | some bytes =>
    rw [h.existing bytes rfl]
    simpa using h.length

end LocalExport.Of

/-! ## Backups -/

variable {service : Service} {scope : Scope} {disk : Disk}

/-- The backup `id` was published for the file `raw` and its replacement. -/
def Published (binding «namespace» : String) (raw : Option Bytes) (replacement : Bytes)
    (snapshotDigest : Option String) (disk : Disk) (id : String) : Prop :=
  identifier id "backup-" = true ∧
    ∃ value, Import.Backup.of binding «namespace» raw replacement snapshotDigest = .ok value ∧
      disk.backups[id]? = some value

theorem backup_triple {«namespace» : String} {raw : Option Bytes} {replacement : Bytes}
    {snapshotDigest : Option String} :
    Triple (fun w => Extends disk w.disk)
      (Flow.backup service scope «namespace» raw replacement snapshotDigest)
      (fun id w => Extends disk w.disk ∧
        Published scope.binding «namespace» raw replacement snapshotDigest w.disk id)
      (fun _ w => Extends disk w.disk) := by
  refine (Triple.lift (Q := fun value w => Extends disk w.disk ∧
    Import.Backup.of scope.binding «namespace» raw replacement snapshotDigest = .ok value)
    (fun value w hw hvalue => ⟨hw, hvalue⟩) (fun _ _ hw _ => hw)).bind fun value => ?_
  refine writing_triple ((Steady.disk _).and (Steady.const _))
    (fun id => (Steady.disk _).and (Steady.disk fun d => Published _ _ _ _ _ d id)) ?_
    (fun w hw => hw.1) (fun id w hw => hw.1) (fun w n e hw _ => hw.1)
  intro w n id disk' hw hwrite
  dsimp only at hwrite
  split at hwrite
  · cases hwrite
  · rename_i hfresh
    cases hwrite
    refine ⟨hw.1.trans (Extends.insert value ?_), identifier_uuid _ n, value, hw.2, ?_⟩
    · exact Bool.eq_false_iff.mpr hfresh
    · rw [getElem?_insert_eq, if_pos rfl]

theorem original_of_backup {binding «namespace» : String} {raw : Option Bytes}
    {replacement : Bytes} {snapshotDigest : Option String} {value : Import.Backup}
    (h : Import.Backup.of binding «namespace» raw replacement snapshotDigest = .ok value) :
    value.original = raw ∧ value.imported = replacement := by
  obtain ⟨before, -, h⟩ := bind_eq_ok.mp h
  cases h
  exact ⟨rfl, rfl⟩

/-- A backup of readable files can be read back. -/
theorem backupOk_of {binding «namespace» : String} {raw : Option Bytes} {replacement : Bytes}
    {snapshotDigest : Option String} {value : Import.Backup} {state : State}
    (h : Import.Backup.of binding «namespace» raw replacement snapshotDigest = .ok value)
    (hraw : raw.all (·.length ≤ Import.MAX_STATE) = true)
    (hreplacement : replacement.length ≤ Import.MAX_STATE)
    (hdecode : Import.decode replacement = .ok state)
    (hdigest : snapshotDigest.all hexDigest = true) :
    BackupOk binding «namespace» value ∧ value.original = raw ∧ value.imported = replacement := by
  obtain ⟨before, hbefore, h⟩ := bind_eq_ok.mp h
  cases h
  refine ⟨⟨?_, rfl, ?_, rfl, rfl, ⟨before, hbefore, rfl⟩, ⟨state, hdecode⟩⟩, rfl, rfl⟩
  · simp only [beq_self_eq_true, hexDigest_sha256, hdigest, Bool.and_self]
  · rw [hraw, Bool.true_and, decide_eq_true_eq]
    exact hreplacement

/-- The backup `id` holds the export and the file it was made from. -/
def Holds (e : LocalExport) (raw : Option Bytes) (binding «namespace» : String) (disk : Disk)
    (id : String) : Prop :=
  ∃ value, Import.backupData disk.backups binding «namespace» id = .ok value ∧
    value.original = raw ∧ value.imported = e.encoded

theorem Published.holds {binding «namespace» id : String} (he : e.Of raw state)
    (h : Published binding «namespace» raw e.encoded none disk id) :
    Holds e raw binding «namespace» disk id := by
  obtain ⟨hid, value, hvalue, hget⟩ := h
  obtain ⟨hok, horiginal, himported⟩ :=
    backupOk_of hvalue he.length he.encoded_length he.decode_encoded rfl
  exact ⟨value, backupData_eq_ok.mpr ⟨hid, hget, hok⟩, horiginal, himported⟩

end Session

end Flightdeck.Cloud
