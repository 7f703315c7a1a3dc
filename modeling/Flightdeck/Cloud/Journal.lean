import Flightdeck.Cloud.Digests
import Flightdeck.Cloud.Flow
import Flightdeck.Cloud.WorldRules

/-!
# Valid records

What `validated` checks of a record, one definition for each source it reads: the record itself, the
snapshot, and the backups of the initial, the target and the confirmed state.
-/

namespace Flightdeck.Cloud.Session

open Foundation SaveState

theorem require_ok {condition : Bool} {code : Code} {u : Unit} :
    Cloud.require condition code = .ok u ↔ condition = true :=
  require_eq_ok

/-- What a record tells by itself. -/
structure WellFormed (binding «namespace» : String) (r : Record) : Prop where
  header : (r.schema == 1 && r.scopeBinding == binding && r.namespace == «namespace» &&
    identifier r.sessionId "" && r.revision ≤ I64_MAX) = true
  digests : [r.originalRemoteDigest, r.beforeRemoteDigest, r.preLocalDigest, r.targetDigest,
    r.targetSha256].all hexDigest = true
  locals : [r.preLocalSha256, r.targetLocalSha256].all missingOrDigest = true
  reference : (identifier r.snapshot.id "snapshot-" && hexDigest r.snapshot.manifestSha256) = true

variable [Sha256] {disk disk' : Disk} {binding «namespace» : String} {r r' : Record}

/-- The remote content of a record is the content of its snapshot. -/
def FromSnapshot (disk : Disk) (binding : String) (r : Record) : Prop :=
  ∃ remote, Import.snapshot disk.snapshots binding (r.snapshot.snapshot binding) = .ok remote ∧
    remote.digest = r.snapshot.manifestSha256 ∧
    Import.digest remote.state = .ok r.originalRemoteDigest

/-- The first local state of a record is what its initial backup saved. -/
def FromInitial (disk : Disk) (binding «namespace» : String) (r : Record) : Prop :=
  ∃ initial state, Import.backupData disk.backups binding «namespace» r.initialBackupId = .ok initial ∧
    Import.decodeOption initial.original = .ok state ∧
    Import.rawDigest initial.original = r.preLocalSha256 ∧
    Import.digest state = .ok r.preLocalDigest

/-- The target of a record is what its target backup holds on both sides. -/
def FromTarget (disk : Disk) (binding «namespace» : String) (r : Record) : Prop :=
  ∃ target state, Import.backupData disk.backups binding «namespace» r.targetBackupId = .ok target ∧
    SaveState.decode target.imported = .ok state ∧
    sha256 target.imported = r.targetSha256 ∧ state.generation = r.generation ∧
    Import.digest state = .ok r.targetDigest ∧
    Import.rawDigest target.original = r.targetLocalSha256

/-- The remote content before the upload is that of the last confirmed upload, or the original. -/
def FromConfirmed (disk : Disk) (binding «namespace» : String) (r : Record) : Prop :=
  match r.confirmedBackupId with
  | some id => ∃ confirmed state,
      Import.backupData disk.backups binding «namespace» id = .ok confirmed ∧
      SaveState.decode confirmed.imported = .ok state ∧
      Import.digest state = .ok r.beforeRemoteDigest
  | none => r.beforeRemoteDigest = r.originalRemoteDigest

structure Valid (disk : Disk) (binding «namespace» : String) (r : Record) : Prop where
  wellFormed : WellFormed binding «namespace» r
  snapshot : FromSnapshot disk binding r
  initial : FromInitial disk binding «namespace» r
  target : FromTarget disk binding «namespace» r
  confirmed : FromConfirmed disk binding «namespace» r

structure BackupOk (binding «namespace» : String) (b : Import.Backup) : Prop where
  metadata : (b.metadata.schema == 1 && b.metadata.scopeBinding == binding &&
    b.metadata.namespace == «namespace» && hexDigest b.metadata.replacementSha256 &&
    b.metadata.snapshotSha256.all hexDigest) = true
  existed : b.original.isSome = b.metadata.existed
  lengths : (b.original.all (·.length ≤ Import.MAX_STATE) &&
    b.imported.length ≤ Import.MAX_STATE) = true
  original : b.original.map sha256 = b.metadata.stateSha256
  imported : sha256 b.imported = b.metadata.replacementSha256
  generation : ∃ state, Import.decodeOption b.original = .ok state ∧
    state.generation = b.metadata.generation
  readable : ∃ state, Import.decode b.imported = .ok state

theorem backupData_eq_ok {backups : TextMap Import.Backup} {id : String} {b : Import.Backup} :
    Import.backupData backups binding «namespace» id = .ok b ↔
      identifier id "backup-" = true ∧ backups[id]? = some b ∧ BackupOk binding «namespace» b := by
  unfold Import.backupData
  constructor
  · intro h
    obtain ⟨_, hid, h⟩ := bind_eq_ok.mp h
    cases hb : backups[id]? with
    | none =>
      rw [hb] at h
      cases h
    | some c =>
      rw [hb] at h
      simp only [bind_eq_ok, require_ok, pure_eq_ok, exists_and_left, exists_const] at h
      obtain ⟨hmetadata, hexisted, hlengths, hdigests, state, hstate, hgeneration, imported,
        himported, rfl⟩ := h
      rw [Bool.and_eq_true, beq_iff_eq, beq_iff_eq] at hdigests
      exact ⟨require_ok.mp hid, rfl, hmetadata, beq_iff_eq.mp hexisted, hlengths, hdigests.1,
        hdigests.2, ⟨state, hstate, beq_iff_eq.mp hgeneration⟩, imported, himported⟩
  · rintro ⟨hid, hb, h⟩
    obtain ⟨state, hstate, hgeneration⟩ := h.generation
    obtain ⟨imported, himported⟩ := h.readable
    rw [hid, hb]
    simp only [bind_eq_ok, require_ok, pure_eq_ok, h.metadata, h.existed, h.lengths, h.original,
      h.imported, hstate, himported, beq_self_eq_true, Bool.and_self]
    exact ⟨(), trivial, (), trivial, (), trivial, (), trivial, (), trivial, state, rfl, (),
      beq_iff_eq.mpr hgeneration, imported, rfl, trivial⟩

theorem BackupOk.stateSha256 {b : Import.Backup} (h : BackupOk binding «namespace» b) :
    b.metadata.stateSha256.getD "missing" = Import.rawDigest b.original := by
  rw [← h.original]
  rfl

theorem initialState_eq_ok {original : Option Bytes} {state : State} :
    initialState original = .ok state ↔ Import.decodeOption original = .ok state := by
  cases original with
  | none => rfl
  | some raw => exact mapError_eq_ok.trans mapError_eq_ok.symm

theorem validConfirmed_eq_ok :
    validConfirmed disk binding «namespace» r = .ok () ↔ FromConfirmed disk binding «namespace» r := by
  unfold validConfirmed FromConfirmed
  cases r.confirmedBackupId with
  | none => exact require_ok.trans beq_iff_eq
  | some id =>
    simp only [bind_eq_ok, require_ok, beq_iff_eq, decodeState, mapError_eq_ok]
    constructor
    · rintro ⟨confirmed, hconfirmed, state, hstate, digest, hdigest, rfl⟩
      exact ⟨confirmed, state, hconfirmed, hstate, hdigest⟩
    · rintro ⟨confirmed, state, hconfirmed, hstate, hdigest⟩
      exact ⟨confirmed, hconfirmed, state, hstate, _, hdigest, rfl⟩

theorem validated_eq_ok :
    validated disk binding «namespace» r = .ok r' ↔ r' = r ∧ Valid disk binding «namespace» r := by
  unfold validated
  simp only [bind_eq_ok, require_ok, pure_eq_ok, decodeState, mapError_eq_ok, initialState_eq_ok]
  constructor
  · rintro ⟨_, hheader, _, hdigests, _, hlocals, _, hreference, remote, hremote, original, horiginal,
      _, hsnapshot, initial, hinitial, before, hbefore, pre, hpre, _, hlocal, target, htarget, state,
      hstate, digest, hdigest, _, hchecks, _, hconfirmed, rfl⟩
    simp only [Bool.and_eq_true, beq_iff_eq] at hsnapshot hlocal hchecks
    obtain ⟨hmanifest, rfl⟩ := hsnapshot
    obtain ⟨hraw, rfl⟩ := hlocal
    obtain ⟨⟨⟨hsha, hgeneration⟩, rfl⟩, hstored⟩ := hchecks
    rw [(backupData_eq_ok.mp htarget).2.2.stateSha256] at hstored
    exact ⟨rfl, ⟨hheader, hdigests, hlocals, hreference⟩, ⟨remote, hremote, hmanifest, horiginal⟩,
      ⟨initial, before, hinitial, hbefore, hraw, hpre⟩,
      ⟨target, state, htarget, hstate, hsha, hgeneration, hdigest, hstored⟩,
      validConfirmed_eq_ok.mp hconfirmed⟩
  · rintro ⟨rfl, hwell, ⟨remote, hremote, hmanifest, horiginal⟩,
      ⟨initial, before, hinitial, hbefore, hraw, hpre⟩,
      ⟨target, state, htarget, hstate, hsha, hgeneration, hdigest, hstored⟩, hconfirmed⟩
    refine ⟨(), hwell.header, (), hwell.digests, (), hwell.locals, (), hwell.reference, remote,
      hremote, _, horiginal, (), ?_, initial, hinitial, before, hbefore, _, hpre, (), ?_, target,
      htarget, state, hstate, _, hdigest, (), ?_, (), validConfirmed_eq_ok.mpr hconfirmed, rfl⟩
    · rw [hmanifest, beq_self_eq_true, beq_self_eq_true]
      rfl
    · rw [hraw, beq_self_eq_true, beq_self_eq_true]
      rfl
    · rw [(backupData_eq_ok.mp htarget).2.2.stateSha256, hsha, hgeneration, hstored]
      simp only [beq_self_eq_true, Bool.and_self]

/-- What is known of a snapshot that was read. -/
theorem snapshot_facts {folders : TextMap Storage.Folder} {snap : Storage.Snapshot}
    {v : Import.Validated} (h : Import.snapshot folders binding snap = .ok v) :
    snap.scopeBinding = binding ∧ snap.consistency = Storage.CONSISTENCY ∧
      identifier snap.id "snapshot-" = true ∧ hexDigest v.digest = true ∧ Encodable v.state := by
  unfold Import.snapshot Import.validate at h
  obtain ⟨_, hscope, h⟩ := bind_eq_ok.mp (mapError_eq_ok.mp h)
  obtain ⟨_, hid, h⟩ := bind_eq_ok.mp h
  rw [require_ok, Bool.and_eq_true, beq_iff_eq, beq_iff_eq] at hscope
  refine ⟨hscope.1, hscope.2, require_ok.mp hid, ?_⟩
  cases hfolder : folders[snap.id]? with
  | none =>
    rw [hfolder] at h
    cases h
  | some folder =>
    rw [hfolder] at h
    simp only [bind_eq_ok, pure_eq_ok, mapError_eq_ok] at h
    obtain ⟨_, -, _, -, rows, -, _, -, data, hdata, rfl⟩ := h
    exact ⟨hexDigest_sha256 _, encodable_iff.mp ⟨data, hdata⟩⟩

/-! ## What a record refers to -/

/-- The snapshot and the backups that `r` names are the same on both disks. -/
structure Kept (r : Record) (disk disk' : Disk) : Prop where
  snapshot : disk'.snapshots[r.snapshot.id]? = disk.snapshots[r.snapshot.id]?
  initial : disk'.backups[r.initialBackupId]? = disk.backups[r.initialBackupId]?
  target : disk'.backups[r.targetBackupId]? = disk.backups[r.targetBackupId]?
  confirmed : ∀ id ∈ r.confirmedBackupId, disk'.backups[id]? = disk.backups[id]?

theorem backupData_congr {backups backups' : TextMap Import.Backup} {id : String}
    (h : backups'[id]? = backups[id]?) :
    Import.backupData backups' binding «namespace» id =
      Import.backupData backups binding «namespace» id := by
  unfold Import.backupData
  rw [h]

theorem snapshot_congr {folders folders' : TextMap Storage.Folder} {snap : Storage.Snapshot}
    (h : folders'[snap.id]? = folders[snap.id]?) :
    Import.snapshot folders' binding snap = Import.snapshot folders binding snap := by
  unfold Import.snapshot Import.validate
  rw [h]

theorem Kept.valid (h : Kept r disk disk') (hvalid : Valid disk binding «namespace» r) :
    Valid disk' binding «namespace» r where
  wellFormed := hvalid.wellFormed
  snapshot := by
    have hsnapshot := hvalid.snapshot
    unfold FromSnapshot at hsnapshot ⊢
    have hcongr : Import.snapshot disk'.snapshots binding (r.snapshot.snapshot binding) =
        Import.snapshot disk.snapshots binding (r.snapshot.snapshot binding) :=
      snapshot_congr h.snapshot
    rwa [hcongr]
  initial := by
    have hinitial := hvalid.initial
    unfold FromInitial at hinitial ⊢
    rwa [backupData_congr h.initial]
  target := by
    have htarget := hvalid.target
    unfold FromTarget at htarget ⊢
    rwa [backupData_congr h.target]
  confirmed := by
    have hconfirmed := hvalid.confirmed
    unfold FromConfirmed at hconfirmed ⊢
    cases hid : r.confirmedBackupId with
    | none => rwa [hid] at hconfirmed
    | some id =>
      rw [hid] at hconfirmed
      simp only [backupData_congr (h.confirmed id hid)]
      exact hconfirmed

end Flightdeck.Cloud.Session
