import Flightdeck.Cloud.Baselines

/-!
# Imports and restores

An import replaces the local file at one point, after the file it replaces was saved, and a restore
of what was saved takes it back.  Whatever fails before that point leaves the file, and what fails
after it only leaves the import without a baseline.
-/

namespace Flightdeck.Cloud.Session

open Foundation SaveState

/-- The disk after `state.bin` was replaced. -/
def Disk.renamed (disk : Disk) (encoded : Bytes) : Disk :=
  { disk with stateBin := some encoded, replaced := disk.stateBin :: disk.replaced }

section

variable [Sha256] {service : Service} {scope : Scope} {disk : Disk}

section

variable {R : Disk → Prop} {E : Failure → World → Prop} {previous : String} {encoded : Bytes}

/-- The file was still the one that `previous` is the digest of. -/
def Committed (R : Disk → Prop) (previous : String) (encoded : Bytes) (d : Disk) : Prop :=
  ∃ d₁, (R d₁ ∧ Import.rawDigest d₁.stateBin = previous) ∧ d = d₁.renamed encoded

theorem commit_triple (hE : ∀ f w, OnDisk R w → E f w)
    (hcrash : ∀ f w, OnDisk (Committed R previous encoded) w → w.alive = false → E f w) :
    Triple (OnDisk R) (Flow.commit service previous encoded)
      (fun _ => OnDisk (Committed R previous encoded)) E := by
  refine ((reading_onDisk hE).post fun _ w h => h.1).bind fun _ => ?_
  refine (cancelCheck_onDisk hE).bind fun _ => ?_
  refine (reading_onDisk hE).bind fun fresh => ?_
  obtain ⟨raw, state⟩ := fresh
  refine (require_onDisk fun f w h => hE f w h.1).bind fun _ => ?_
  have hrename : Triple (OnDisk fun d => (R d ∧ Disk.state d = .ok (raw, state)) ∧
      (Import.rawDigest raw == previous) = true) (Flow.rename service encoded)
      (fun _ => OnDisk (Committed R previous encoded)) E := by
    refine systemCall_onDisk (fun f w h => hE f w h.1.1) (fun _ f w h => hcrash f w h)
      fun d n _ d' hd hwrite => ?_
    cases hwrite
    obtain ⟨-, -, rfl, -⟩ := Disk.state_eq_ok.mp hd.1.2
    exact ⟨d, ⟨hd.1.1, beq_iff_eq.mp hd.2⟩, rfl⟩
  refine hrename.bind fun _ => ?_
  refine Triple.bind (Q := fun _ => OnDisk (Committed R previous encoded)) ?_ fun result => ?_
  · exact Triple.attempt ((reading_onDisk (f := fun _ => .ok ()) fun _ w h => h).post
      fun _ w h => h.1)
  · cases result with
    | ok _ => exact fun w h => h
    | error _ => exact fun w h => h

end

/-! ## Imports -/

/-- The local file is the encoded selection, and the backup `id` holds it and the file before. -/
structure Replaced (scope : Scope) («namespace» : String) (disk : Disk) (selected : State)
    (id : String) (encoded : Bytes) (d : Disk) : Prop where
  content : Import.encode selected = .ok encoded
  stateBin : d.stateBin = some encoded
  backup : ∃ backup, Import.backupData d.backups scope.binding «namespace» id = .ok backup ∧
    backup.original = disk.stateBin ∧ backup.imported = encoded
  grows : Grows disk d

/-- What an import did to the baseline: nothing, or the new content is that of the cloud and is the
baseline that is loaded from now on. -/
def BaselineAfter (scope : Scope) (plan : Import.Plan) (disk : Disk) (selected : State)
    (result : Option Import.Baseline) (d : Disk) : Prop :=
  result = none ∧ Grows disk d ∨
    Import.digest selected = .ok plan.remoteDigest ∧
      ∃ b, Import.baseline scope.binding selected = .ok b ∧
        loadBaseline scope d = .ok (some b) ∧ (result = none ∨ result = some b)

/-- What a successful import ends with. -/
structure Imported (scope : Scope) (plan : Import.Plan) (disk : Disk) (selected : State)
    (result : Flow.ImportResult) (d : Disk) : Prop where
  imported : result.imported = true
  generation : result.generation = selected.generation
  stateBin : ∃ encoded, Import.encode selected = .ok encoded ∧ d.stateBin = some encoded ∧
    ∃ id backup, result.backupId = some id ∧
      Import.backupData d.backups scope.binding plan.namespace id = .ok backup ∧
      backup.original = disk.stateBin ∧ backup.imported = encoded
  baseline : BaselineAfter scope plan disk selected result.baseline d

variable {plan : Import.Plan} {selected : State}

theorem decode_of_encode {data : Bytes} (h : Import.encode selected = .ok data) :
    Import.decode data = .ok selected :=
  mapError_eq_ok.mpr (decode_encode (mapError_eq_ok.mp h))

theorem encodable_of_encode {data : Bytes} (h : Import.encode selected = .ok data) :
    Encodable selected := encodable_iff.mp ⟨data, mapError_eq_ok.mp h⟩

/-- What a failure leaves: the old file, or, where the program ended after it was replaced, the new
one and a backup of both. -/
structure Untouched (disk : Disk) (w : World) : Prop where
  file : w.alive = true → w.disk.stateBin = disk.stateBin
  saved : w.disk.stateBin = disk.stateBin ∨ ∃ (id : String) (backup : Import.Backup),
    w.disk.backups[id]? = some backup ∧ backup.original = disk.stateBin ∧
      w.disk.stateBin = some backup.imported
  grows : Grows disk w.disk

omit [Sha256] in
theorem Extends.stateBin {disk' : Disk} (h : Extends disk disk') :
    disk'.stateBin = disk.stateBin := by
  obtain ⟨_, rfl, -⟩ := h
  rfl

omit [Sha256] in
theorem Extends.grows {disk' : Disk} (h : Extends disk disk') : Grows disk disk' := by
  obtain ⟨_, rfl, hbackups⟩ := h
  exact ⟨rfl, rfl, Included.refl _, hbackups⟩

omit [Sha256] in
theorem untouched_of_extends {w : World} (h : Extends disk w.disk) : Untouched disk w :=
  ⟨fun _ => h.stateBin, Or.inl h.stateBin, h.grows⟩

omit [Sha256] in
theorem untouched_of_eq {w : World} (h : w.disk = disk) : Untouched disk w :=
  untouched_of_extends (by rw [h]; exact Extends.refl disk)

/-- The file is the one before, or all of the encoded selection. -/
def Cut (disk : Disk) (selected : State) (w : World) : Prop :=
  w.disk.stateBin = disk.stateBin ∨
    ∃ encoded, Import.encode selected = .ok encoded ∧ w.disk.stateBin = some encoded

/-- A backup of the file that is about to be replaced. -/
def SavedBy (scope : Scope) («namespace» : String) (disk : Disk) (encoded : Bytes)
    (snapshotDigest : Option String) (id : String) (d : Disk) : Prop :=
  Extends disk d ∧ Published scope.binding «namespace» disk.stateBin encoded snapshotDigest d id

theorem save_triple {«namespace» : String} {encoded : Bytes} {snapshotDigest : Option String} :
    Triple (OnDisk (· = disk))
      (Flow.backup service scope «namespace» disk.stateBin encoded snapshotDigest)
      (fun id => OnDisk (SavedBy scope «namespace» disk encoded snapshotDigest id))
      (fun _ w => Untouched disk w ∧ w.disk.stateBin = disk.stateBin) := by
  refine backup_triple.mono (fun w h => ?_) (fun _ _ h => h) fun _ _ h =>
    ⟨untouched_of_extends h, h.stateBin⟩
  exact (show w.disk = disk from h) ▸ Extends.refl w.disk

theorem replace_triple {«namespace» previous id : String} {encoded : Bytes}
    {snapshotDigest : Option String} (hencoded : Import.encode selected = .ok encoded) :
    Triple (OnDisk (SavedBy scope «namespace» disk encoded snapshotDigest id))
      (Flow.commit service previous encoded)
      (fun _ => OnDisk (Committed (SavedBy scope «namespace» disk encoded snapshotDigest id)
        previous encoded))
      (fun _ w => Untouched disk w ∧ Cut disk selected w) :=
  commit_triple (fun _ _ h => ⟨untouched_of_extends h.1, Or.inl h.1.stateBin⟩) fun _ w h hdead => by
    obtain ⟨d₁, ⟨⟨hextends, -, backup, hbackup, hget⟩, -⟩, hd⟩ := h
    obtain ⟨horiginal, himported⟩ := original_of_backup hbackup
    have hgrows := hextends.grows
    refine ⟨⟨fun halive => ?_, Or.inr ⟨id, backup, ?_, horiginal, ?_⟩, ?_⟩,
      Or.inr ⟨encoded, hencoded, by rw [hd]; rfl⟩⟩
    · rw [hdead] at halive
      cases halive
    · rw [hd]
      exact hget
    · rw [hd, himported]
      rfl
    · rw [hd]
      exact ⟨hgrows.enabled, hgrows.baseline, hgrows.receipts, hgrows.backups⟩

/-- The file was saved before it was replaced. -/
theorem replaced_of_committed {«namespace» previous id : String} {encoded : Bytes} {state : State}
    {snapshotDigest : Option String} {d : Disk} (hstate : disk.state = .ok (disk.stateBin, state))
    (hencoded : Import.encode selected = .ok encoded)
    (hdigest : snapshotDigest.all hexDigest = true)
    (h : Committed (SavedBy scope «namespace» disk encoded snapshotDigest id) previous encoded d) :
    Replaced scope «namespace» disk selected id encoded d := by
  obtain ⟨-, hlength, -, -⟩ := Disk.state_eq_ok.mp hstate
  obtain ⟨d₁, ⟨⟨hextends, hid, backup, hbackup, hget⟩, -⟩, rfl⟩ := h
  obtain ⟨hok, horiginal, himported⟩ := backupOk_of hbackup hlength (encode_length hencoded)
    (decode_of_encode hencoded) hdigest
  have hgrows := hextends.grows
  exact ⟨hencoded, rfl, ⟨backup, backupData_eq_ok.mpr ⟨hid, hget, hok⟩, horiginal, himported⟩,
    ⟨hgrows.enabled, hgrows.baseline, hgrows.receipts, hgrows.backups⟩⟩

theorem baseline_of_encodable {binding : String} {s : State} (h : Encodable s) :
    ∃ b, Import.baseline binding s = .ok b := by
  obtain ⟨m, hm⟩ := containers_of_encodable h
  exact ⟨_, bind_eq_ok.mpr ⟨m, hm, rfl⟩⟩

theorem replaceLocal_triple {state : State} (hstate : disk.state = .ok (disk.stateBin, state))
    (hnamespace : scope.namespace = .ok plan.namespace)
    (hdigest : (some plan.snapshotDigest).all hexDigest = true) :
    Triple (OnDisk (· = disk)) (Flow.replaceLocal service scope plan disk.stateBin selected)
      (fun result => OnDisk (Imported scope plan disk selected result))
      (fun _ w => Untouched disk w ∧ Cut disk selected w) := by
  have henabled : disk.enabled = true := (Disk.state_eq_ok.mp hstate).1
  have hsame : ∀ (_ : Failure) w, OnDisk (· = disk) w → Untouched disk w ∧ Cut disk selected w :=
    fun _ w h => ⟨untouched_of_eq h, Or.inl (congrArg Disk.stateBin (show w.disk = disk from h))⟩
  unfold Flow.replaceLocal
  refine (lift_onDisk hsame).bind fun encoded => fixed_onDisk fun hencoded => ?_
  refine (cancelCheck_onDisk hsame).bind fun _ => ?_
  refine (save_triple.mono (fun _ h => h) (fun _ _ h => h) fun _ w h =>
    ⟨h.1, Or.inl h.2⟩).bind fun id => ?_
  refine (replace_triple hencoded).bind fun durable => each_onDisk fun d hd => ?_
  have hreplaced := replaced_of_committed hstate hencoded hdigest hd
  obtain ⟨backup, hbackup, horiginal, himported⟩ := hreplaced.backup
  have hencodable := encodable_of_encode hencoded
  obtain ⟨digest, hselected⟩ := digest_of_encodable hencodable
  obtain ⟨b, hb⟩ : ∃ b, Import.baseline scope.binding selected = .ok b :=
    baseline_of_encodable hencodable
  have hdecoded := decode_of_encode hencoded
  -- What comes after the file was replaced changes neither the file nor its backup.
  have himport : ∀ (result : Flow.ImportResult) d', result.imported = true →
      result.generation = selected.generation → result.backupId = some id →
      d'.stateBin = d.stateBin → d'.backups = d.backups →
      BaselineAfter scope plan disk selected result.baseline d' →
      Imported scope plan disk selected result d' := by
    intro result d' himported' hgeneration hid hfile hbackups hbaseline
    refine ⟨himported', hgeneration, ⟨encoded, hencoded, hfile.trans hreplaced.stateBin, id, backup,
      hid, ?_, horiginal, himported⟩, hbaseline⟩
    rw [hbackups]
    exact hbackup
  rw [hselected, hb]
  change Triple _ (if (digest == plan.remoteDigest) = true then _ else _) _ _
  -- a baseline is published only when the file now has the content of the cloud
  by_cases hcloud : (digest == plan.remoteDigest) = true
  · rw [if_pos hcloud]
    rw [beq_iff_eq.mp hcloud] at hselected
    have hpublishable : Publishable scope plan.namespace id encoded b d :=
      ⟨hnamespace, hreplaced.grows.enabled.trans henabled, ⟨backup, hbackup, himported⟩,
        selected, hdecoded, hb⟩
    refine (publishAttempt_triple hpublishable (Or.inl rfl)).bind fun r => ?_
    have hafter : ∀ {d' : Disk} {result : Option Import.Baseline}, result = none ∨ result = some b →
        BaselinePublished scope d b d' → BaselineAfter scope plan disk selected result d' :=
      fun hresult h => Or.inr ⟨hselected, b, hb, h.loads, hresult⟩
    have hrest : ∀ {d' : Disk}, ReceiptsAdded d d' ∨ BaselinePublished scope d b d' →
        d'.stateBin = d.stateBin ∧ d'.backups = d.backups := by
      rintro d' (⟨receipts, rfl, -⟩ | ⟨⟨receipts, pointer, rfl⟩, -⟩)
      · exact ⟨rfl, rfl⟩
      · exact ⟨rfl, rfl⟩
    cases r with
    | ok u =>
      intro w hw
      obtain ⟨hfile, hbackups⟩ := hrest hw.2
      exact himport _ _ rfl rfl rfl hfile hbackups (hafter (Or.inr rfl) (hw.1 rfl))
    -- a baseline that is not published does not undo the import
    | error f =>
      intro w hw
      obtain ⟨hfile, hbackups⟩ := hrest hw.2
      refine himport _ _ rfl rfl rfl hfile hbackups ?_
      rcases hw.2 with hadded | hpublished
      · exact Or.inl ⟨rfl, hreplaced.grows.trans hadded.grows⟩
      · exact hafter (Or.inl rfl) hpublished
  · rw [if_neg hcloud]
    intro w hw
    have hd' : w.disk = d := hw
    exact himport _ _ rfl rfl rfl (by rw [hd']) (by rw [hd'])
      (Or.inl ⟨rfl, hd' ▸ hreplaced.grows⟩)

/-- An import selects from the local state and the snapshot, and counts the generation up. -/
structure Applied (scope : Scope) (plan : Import.Plan) (choice : Import.Choice) (disk : Disk)
    (state selected : State) (result : Flow.ImportResult) (d : Disk) : Prop where
  named : scope.namespace = .ok plan.namespace
  «local» : disk.state = .ok (disk.stateBin, state)
  remote : ∃ remote, Import.snapshot disk.snapshots scope.binding plan.snapshot = .ok remote ∧
    Import.digest remote.state = .ok plan.remoteDigest ∧
    Import.select state remote.state plan choice = .ok selected
  counts : state.generation.toNat + 1 < 2 ^ 64
  imported : Imported scope plan disk { selected with generation := state.generation + 1 } result d

/-- What `apply` ends with, if it succeeds. -/
def ApplyEnds (scope : Scope) (plan : Import.Plan) (choice : Import.Choice) (disk : Disk)
    (result : Flow.ImportResult) (d : Disk) : Prop :=
  result.imported = false ∧ d = disk ∨
    ∃ state selected, Applied scope plan choice disk state selected result d

/-- What a failure of `apply` leaves in the file: what was there, or all of the selection. -/
def LeavesFile (scope : Scope) (plan : Import.Plan) (choice : Import.Choice) (disk : Disk)
    (w : World) : Prop :=
  w.disk.stateBin = disk.stateBin ∨ ∃ state remote selected, disk.state = .ok (disk.stateBin, state) ∧
    Import.snapshot disk.snapshots scope.binding plan.snapshot = .ok remote ∧
    Import.select state remote.state plan choice = .ok selected ∧
    Cut disk { selected with generation := state.generation + 1 } w

/-- The selection has the digest of the local state. -/
def SelectsSame (scope : Scope) (plan : Import.Plan) (choice : Import.Choice) (disk : Disk) : Prop :=
  ∃ state remote selected digest, disk.state = .ok (disk.stateBin, state) ∧
    Import.snapshot disk.snapshots scope.binding plan.snapshot = .ok remote ∧
    Import.select state remote.state plan choice = .ok selected ∧
    Import.digest selected = .ok digest ∧ Import.digest state = .ok digest

theorem apply_triple {choice : Import.Choice} :
    Triple (OnDisk (· = disk)) (Flow.apply service scope plan choice)
      (fun result => OnDisk fun d => ApplyEnds scope plan choice disk result d ∧
        (result.imported = false → SelectsSame scope plan choice disk))
      (fun _ w => Untouched disk w ∧ LeavesFile scope plan choice disk w) := by
  have hsame : ∀ (_ : Failure) w, OnDisk (· = disk) w →
      Untouched disk w ∧ LeavesFile scope plan choice disk w := fun _ w h =>
    ⟨untouched_of_eq h, Or.inl (congrArg Disk.stateBin (show w.disk = disk from h))⟩
  unfold Flow.apply
  refine (lift_onDisk hsame).bind fun «namespace» => fixed_onDisk fun hnamespace => ?_
  refine (require_onDisk hsame).bind fun _ => fixed_onDisk fun hplan => ?_
  rw [Bool.and_eq_true, beq_iff_eq, beq_iff_eq] at hplan
  refine (cancelCheck_onDisk hsame).bind fun _ => ?_
  refine (reading_onDisk hsame).bind fun remote => fixed_onDisk fun hremote => ?_
  refine (lift_onDisk hsame).bind fun digest => fixed_onDisk fun hdigest => ?_
  refine (require_onDisk hsame).bind fun _ => fixed_onDisk fun hsnapshot => ?_
  rw [Bool.and_eq_true, beq_iff_eq, beq_iff_eq] at hsnapshot
  refine (reading_onDisk hsame).bind fun fresh => fixed_onDisk fun hstate => ?_
  obtain ⟨raw, state⟩ := fresh
  obtain rfl : raw = disk.stateBin := (Disk.state_eq_ok.mp hstate).2.2.1
  refine (require_onDisk hsame).bind fun _ => fixed_onDisk fun _ => ?_
  refine (lift_onDisk hsame).bind fun selected => fixed_onDisk fun hselected => ?_
  refine (lift_onDisk hsame).bind fun a => fixed_onDisk fun ha => ?_
  refine (lift_onDisk hsame).bind fun b => fixed_onDisk fun hb => ?_
  by_cases heq : (a == b) = true
  · rw [if_pos heq]
    rw [← beq_iff_eq.mp heq] at hb
    exact fun w hw => ⟨Or.inl ⟨rfl, hw⟩, fun _ => ⟨state, remote, selected, a, hstate, hremote,
      hselected, ha, hb⟩⟩
  · rw [if_neg heq]
    refine (require_onDisk hsame).bind fun _ => fixed_onDisk fun hcounts => ?_
    have hhex : (some plan.snapshotDigest).all hexDigest = true := by
      rw [← hsnapshot.1]
      exact (snapshot_facts hremote).2.2.2.1
    refine (replaceLocal_triple hstate (hplan.2 ▸ hnamespace) hhex).mono (fun _ h => h)
      (fun result w h => ⟨Or.inr ?_, fun hkept => ?_⟩) fun _ w h =>
        ⟨h.1, Or.inr ⟨state, remote, selected, hstate, hremote, hselected, h.2⟩⟩
    · exact ⟨state, selected, hplan.2 ▸ hnamespace, hstate,
        ⟨remote, hremote, hsnapshot.2 ▸ hdigest, hselected⟩, of_decide_eq_true hcounts, h⟩
    · rw [h.imported] at hkept
      cases hkept

/-! ## Restores -/

/-- What `restore` ends with, if it succeeds. -/
structure Restored (scope : Scope) (id : String) (disk : Disk) (result : Flow.ImportResult)
    (d : Disk) : Prop where
  restored : ∃ «namespace» old bytes state original encoded,
    scope.namespace = .ok «namespace» ∧
    Import.backupData disk.backups scope.binding «namespace» id = .ok old ∧
    disk.stateBin = some bytes ∧ sha256 bytes = sha256 old.imported ∧
    disk.state = .ok (disk.stateBin, state) ∧ state.generation.toNat + 1 < 2 ^ 64 ∧
    Import.decodeOption old.original = .ok original ∧
    Import.encode { original with generation := state.generation + 1 } = .ok encoded ∧
    d.stateBin = some encoded ∧ result.generation = state.generation + 1
  grows : Grows disk d

theorem restore_triple {id : String} :
    Triple (OnDisk (· = disk)) (Flow.restore service scope id)
      (fun result => OnDisk (Restored scope id disk result)) (fun _ => Untouched disk) := by
  have hsame : ∀ (_ : Failure) w, OnDisk (· = disk) w → Untouched disk w :=
    fun _ _ h => untouched_of_eq h
  unfold Flow.restore
  refine (lift_onDisk hsame).bind fun «namespace» => fixed_onDisk fun hnamespace => ?_
  refine (cancelCheck_onDisk hsame).bind fun _ => ?_
  refine (reading_onDisk hsame).bind fun old => fixed_onDisk fun hold => ?_
  refine (reading_onDisk hsame).bind fun fresh => fixed_onDisk fun hstate => ?_
  obtain ⟨raw, state⟩ := fresh
  obtain rfl : raw = disk.stateBin := (Disk.state_eq_ok.mp hstate).2.2.1
  refine (require_onDisk hsame).bind fun _ => fixed_onDisk fun himported => ?_
  refine (lift_onDisk hsame).bind fun original => fixed_onDisk fun horiginal => ?_
  refine (require_onDisk hsame).bind fun _ => fixed_onDisk fun hcounts => ?_
  refine (lift_onDisk hsame).bind fun encoded => fixed_onDisk fun hencoded => ?_
  refine (save_triple.mono (fun _ h => h) (fun _ _ h => h) fun _ w h => h.1).bind fun saved => ?_
  refine ((replace_triple hencoded).mono (fun _ h => h) (fun _ _ h => h) fun _ w h => h.1).bind
    fun durable => fun w hw => ?_
  have hreplaced := replaced_of_committed hstate hencoded rfl hw
  rw [Bool.and_eq_true, beq_iff_eq] at himported
  obtain ⟨bytes, hbytes⟩ := Option.isSome_iff_exists.mp himported.1
  refine ⟨⟨«namespace», old, bytes, state, original, encoded, hnamespace, hold, hbytes, ?_, hstate,
    of_decide_eq_true hcounts, horiginal, hencoded, hreplaced.stateBin, rfl⟩, hreplaced.grows⟩
  rw [(backupData_eq_ok.mp hold).2.2.imported, ← himported.2, hbytes]
  rfl

theorem encodable_of_decodeOption {raw : Option Bytes} {s : State}
    (h : Import.decodeOption raw = .ok s) : Encodable s := by
  cases raw with
  | none =>
    cases h
    exact encodable_empty
  | some bytes => exact encodable_of_decode (mapError_eq_ok.mp h)

/-- What `restore` needs to succeed: it was given a backup of this folder, and the file is still the
one that the backup says replaced the saved one. -/
structure Restorable (scope : Scope) («namespace» id : String) (old : Import.Backup) (state : State)
    (disk : Disk) : Prop where
  named : scope.namespace = .ok «namespace»
  backup : Import.backupData disk.backups scope.binding «namespace» id = .ok old
  file : disk.stateBin = some old.imported
  «local» : disk.state = .ok (disk.stateBin, state)
  counts : state.generation.toNat + 1 < 2 ^ 64

theorem commit_calm {n : Nat} {encoded : Bytes} {state : State} {R : Disk → Prop} {previous : String}
    {E : Failure → World → Prop} (h : ∀ d, R d → d.state = .ok (d.stateBin, state) ∧
      Import.rawDigest d.stateBin = previous) :
    Triple (CalmOn n R) (Flow.commit service previous encoded)
      (fun _ => CalmOn (n + 1) fun _ => True) E := by
  have hread : Triple (CalmOn n R) (reading fun _ => .ok ()) (fun _ => CalmOn n R) E :=
    reading_calm fun d hd => ⟨(), rfl, hd⟩
  refine hread.bind fun _ => cancelCheck_calm.bind fun _ => ?_
  refine (reading_calm (Q := fun fresh d => R d ∧ fresh.1 = d.stateBin) fun d hd =>
    ⟨_, (h d hd).1, hd, rfl⟩).bind fun fresh => ?_
  refine (Triple.lift (Q := fun _ => CalmOn n R) (fun _ w hw _ => ⟨hw.1, hw.2.1, hw.2.2.1⟩)
    fun e w hw he => ?_).bind fun _ => ?_
  · have hcheck := (Cloud.require_eq_error.mp he).1
    rw [hw.2.2.2, (h w.disk hw.2.2.1).2, beq_self_eq_true] at hcheck
    cases hcheck
  refine (systemCall_calm (Q := fun _ _ => True) fun d _ => ⟨(), _, rfl, trivial⟩).bind fun _ => ?_
  refine Triple.bind (Q := fun _ => CalmOn (n + 1) fun _ => True) ?_ fun result => ?_
  · exact Triple.attempt (reading_calm fun d _ => ⟨(), rfl, trivial⟩)
  · cases result with
    | ok _ => exact fun w h => h
    | error _ => exact fun w h => h

/-- With nothing that fails, a restore of the right backup succeeds. -/
theorem restore_calm {«namespace» id : String} {old : Import.Backup} {state : State} {n : Nat}
    (h : Restorable scope «namespace» id old state disk)
    (hfresh : disk.backups.contains ("backup-" ++ simpleUuid (service.uuid n)) = false) :
    Triple (CalmOn n (· = disk)) (Flow.restore service scope id)
      (fun _ => CalmOn (n + 1 + 1) fun _ => True) (fun _ _ => False) := by
  obtain ⟨-, -, hok⟩ := backupData_eq_ok.mp h.backup
  obtain ⟨original, horiginal, -⟩ := hok.generation
  obtain ⟨encoded, hencoded⟩ := encodable_iff.mpr
    ((encodable_of_decodeOption horiginal).generation (state.generation + 1))
  have himported : (disk.stateBin.isSome &&
      Import.rawDigest disk.stateBin == old.metadata.replacementSha256) = true := by
    rw [h.file, ← hok.imported, Bool.and_eq_true, beq_iff_eq]
    exact ⟨rfl, rfl⟩
  have hraw : Import.decodeOption disk.stateBin = .ok state := (Disk.state_eq_ok.mp h.local).2.2.2
  unfold Flow.restore
  refine Triple.lift_bind h.named (cancelCheck_calm.bind fun _ => ?_)
  refine reading_calm_bind h.backup (reading_calm_bind h.local ?_)
  refine require_bind himported (Triple.lift_bind horiginal ?_)
  refine require_bind (decide_eq_true h.counts) (Triple.lift_bind (mapError_eq_ok.mpr hencoded) ?_)
  refine Triple.bind (Q := fun _ => CalmOn (n + 1) fun d => d.stateBin = disk.stateBin ∧
    d.enabled = disk.enabled) ?_ fun saved => ?_
  · refine Triple.lift_bind (bind_eq_ok.mpr ⟨state, hraw, rfl⟩) (writing_calm fun d hd => ?_)
    obtain rfl : d = disk := hd
    exact ⟨_, _, if_neg (by rw [hfresh]; exact Bool.false_ne_true), rfl, rfl⟩
  · refine (commit_calm fun d hd =>
      (?_ : d.state = .ok (d.stateBin, state) ∧ _)).bind fun durable => fun w hw => hw
    obtain ⟨henabled, hlength, -, hdecode⟩ := Disk.state_eq_ok.mp h.local
    rw [← hd.1] at hlength hdecode
    exact ⟨Disk.state_eq_ok.mpr ⟨hd.2.trans henabled, hlength, rfl, hdecode⟩, by rw [hd.1]⟩

/-! ## The laws of imports and restores -/

/-- Two files with the same digest are the same file. -/
def NoFileCollision (a b : Option Bytes) : Prop := Import.rawDigest a = Import.rawDigest b → a = b

/-- Two states with the same content digest have the same content. -/
def NoContentCollision (s t : State) : Prop :=
  Import.digest s = Import.digest t → canonical s = canonical t

/-- `apply` imported something. -/
structure Imports (service : Service) (scope : Scope) (plan : Import.Plan) (choice : Import.Choice)
    (w : World) (result : Flow.ImportResult) (w' : World) : Prop where
  run : Flow.apply service scope plan choice w = .ok result w'
  imported : result.imported = true

/-- The new file, and the backup of the old one. -/
structure ImportDone (scope : Scope) (plan : Import.Plan) (choice : Import.Choice) (disk : Disk)
    (result : Flow.ImportResult) (disk' : Disk) (before after : State) (id : String) : Prop where
  oldState : disk.state = .ok (disk.stateBin, before)
  newState : disk'.state = .ok (disk'.stateBin, after)
  selected : ∃ remote selected,
    Import.snapshot disk.snapshots scope.binding plan.snapshot = .ok remote ∧
    Import.digest remote.state = .ok plan.remoteDigest ∧
    Import.select before remote.state plan choice = .ok selected ∧
    after.containers = selected.containers
  generation : after.generation.toNat = before.generation.toNat + 1
  backupId : result.backupId = some id
  backup : ∃ backup, disk'.backups[id]? = some backup ∧ backup.original = disk.stateBin ∧
    backup.metadata.existed = disk.stateBin.isSome ∧ disk'.stateBin = some backup.imported

omit [Sha256] in
theorem generation_succ {g : UInt64} (h : g.toNat + 1 < 2 ^ 64) : (g + 1).toNat = g.toNat + 1 := by
  rw [UInt64.toNat_add]
  change (g.toNat + 1) % 2 ^ 64 = _
  exact Nat.mod_eq_of_lt h

theorem Applied.done {choice : Import.Choice} {state : State} {result : Flow.ImportResult}
    {d : Disk} (h : Applied scope plan choice disk state selected result d) :
    ∃ id, ImportDone scope plan choice disk result d state
      { selected with generation := state.generation + 1 } id := by
  obtain ⟨encoded, hencoded, hfile, id, backup, hid, hbackup, horiginal, himported⟩ :=
    h.imported.stateBin
  obtain ⟨remote, hremote, hdigest, hselect⟩ := h.remote
  obtain ⟨-, hget, hok⟩ := backupData_eq_ok.mp hbackup
  have henabled : d.enabled = true := by
    rcases h.imported.baseline with ⟨-, hgrows⟩ | ⟨-, _, -, hloads, -⟩
    · exact hgrows.enabled.trans (Disk.state_eq_ok.mp h.local).1
    · exact (loadBaseline_eq_ok.mp hloads).choose_spec.2.1
  refine ⟨id, h.local, ?_, ⟨remote, selected, hremote, hdigest, hselect, rfl⟩,
    generation_succ h.counts, hid, backup, hget, horiginal, ?_, ?_⟩
  · refine Disk.state_eq_ok.mpr ⟨henabled, ?_, rfl, ?_⟩
    · rw [hfile]
      exact decide_eq_true (encode_length hencoded)
    · rw [hfile]
      exact decode_of_encode hencoded
  · rw [← hok.existed, horiginal]
  · rw [hfile, himported]

/-- What holds of every import and of the restore of its backup. -/
structure ImportLaws (service : Service) (scope : Scope) : Prop where
  /-- An import that fails leaves the local file; one that is cut off leaves the old file, or the
  new one and a backup of the old one. -/
  apply_fails (plan : Import.Plan) (choice : Import.Choice) (w : World) :
    Ends (Flow.apply service scope plan choice w) (fun _ _ => True) (fun _ => Untouched w.disk)
  restore_fails (id : String) (w : World) :
    Ends (Flow.restore service scope id w) (fun _ _ => True) (fun _ => Untouched w.disk)
  /-- An import that succeeds replaced the file by the selection, and saved the file before. -/
  imports (plan : Import.Plan) (choice : Import.Choice) (w : World) (result : Flow.ImportResult)
    (w' : World) : Imports service scope plan choice w result w' →
    ∃ before after id, ImportDone scope plan choice w.disk result w'.disk before after id
  /-- With nothing that fails, a restore of that backup succeeds exactly if the file is still the
  imported one, unless its generation is the last one. -/
  restores (plan : Import.Plan) (choice : Import.Choice) (w : World) (result : Flow.ImportResult)
    (w' : World) (before after : State) (id : String) (later : World) :
    Imports service scope plan choice w result w' →
    ImportDone scope plan choice w.disk result w'.disk before after id →
    after.generation.toNat + 1 < 2 ^ 64 → Calm later → later.disk.enabled = true →
    later.disk.backups[id]? = w'.disk.backups[id]? →
    later.disk.backups.contains ("backup-" ++ simpleUuid (service.uuid later.draws)) = false →
    NoFileCollision later.disk.stateBin w'.disk.stateBin →
    (succeeded (Flow.restore service scope id later) = true ↔
      later.disk.stateBin = w'.disk.stateBin)
  /-- However a restore of that backup comes to succeed, it takes the import back. -/
  inverts (plan : Import.Plan) (choice : Import.Choice) (w : World) (result : Flow.ImportResult)
    (w' : World) (before after : State) (id : String) (later : World) :
    Imports service scope plan choice w result w' →
    ImportDone scope plan choice w.disk result w'.disk before after id →
    later.disk.backups[id]? = w'.disk.backups[id]? →
    NoFileCollision later.disk.stateBin w'.disk.stateBin →
    Ends (Flow.restore service scope id later)
      (fun _ end_ => later.disk.stateBin = w'.disk.stateBin ∧ ∃ restored,
        end_.disk.state = .ok (end_.disk.stateBin, restored) ∧
        restored.containers = before.containers ∧
        before.generation < restored.generation ∧ after.generation < restored.generation)
      (fun _ _ => True)
  /-- A baseline is only published for the content of the cloud, and the baseline that can be
  loaded afterwards is the old one or the published one. -/
  publishes (plan : Import.Plan) (choice : Import.Choice) (w : World) :
    Ends (Flow.apply service scope plan choice w)
      (fun result w' =>
        (w'.disk.baseline = w.disk.baseline ∧
          ∀ b, loadBaseline scope w.disk = .ok b → loadBaseline scope w'.disk = .ok b) ∨
        ∃ remote after b, Import.snapshot w.disk.snapshots scope.binding plan.snapshot = .ok remote ∧
          w'.disk.state = .ok (w'.disk.stateBin, after) ∧
          (NoContentCollision after remote.state → canonical after = canonical remote.state) ∧
          Import.baseline scope.binding after = .ok b ∧
          loadBaseline scope w'.disk = .ok (some b) ∧
          (result.baseline = none ∨ result.baseline = some b))
      (fun _ w' => w'.disk.baseline = w.disk.baseline ∧
        ∀ b, loadBaseline scope w.disk = .ok b → loadBaseline scope w'.disk = .ok b)

variable {choice : Import.Choice} {w w' later : World} {result : Flow.ImportResult}
  {before after : State} {id : String}

theorem Imports.applied (h : Imports service scope plan choice w result w') :
    ∃ state selected, Applied scope plan choice w.disk state selected result w'.disk := by
  have hends : Ends (Flow.apply service scope plan choice w) _ _ := apply_triple w rfl
  rw [h.run] at hends
  rcases hends.1 with ⟨himported, -⟩ | happlied
  · rw [h.imported] at himported
    cases himported
  · exact happlied

/-- The backup of an import can be read as long as it is kept. -/
theorem ImportDone.readable (h : ImportDone scope plan choice w.disk result w'.disk before after id)
    (himports : Imports service scope plan choice w result w')
    (hkept : later.disk.backups[id]? = w'.disk.backups[id]?) :
    scope.namespace = .ok plan.namespace ∧ ∃ old,
      Import.backupData later.disk.backups scope.binding plan.namespace id = .ok old ∧
      old.original = w.disk.stateBin ∧ w'.disk.stateBin = some old.imported := by
  obtain ⟨state, selected, happlied⟩ := himports.applied
  obtain ⟨encoded, -, hfile, id', old, hid', hold, horiginal, himported⟩ :=
    happlied.imported.stateBin
  obtain rfl : id' = id := Option.some.inj (hid'.symm.trans h.backupId)
  rw [← backupData_congr hkept] at hold
  exact ⟨happlied.named, old, hold, horiginal, by rw [hfile, himported]⟩

theorem ImportDone.restorable (h : ImportDone scope plan choice w.disk result w'.disk before after id)
    (himports : Imports service scope plan choice w result w')
    (hcounts : after.generation.toNat + 1 < 2 ^ 64) (henabled : later.disk.enabled = true)
    (hkept : later.disk.backups[id]? = w'.disk.backups[id]?)
    (hfile : later.disk.stateBin = w'.disk.stateBin) :
    ∃ old, Restorable scope plan.namespace id old after later.disk := by
  obtain ⟨hnamed, old, hold, -, himported⟩ := h.readable himports hkept
  obtain ⟨-, hlength, -, hdecode⟩ := Disk.state_eq_ok.mp h.newState
  rw [← hfile] at hlength hdecode himported
  exact ⟨old, hnamed, hold, himported, Disk.state_eq_ok.mpr ⟨henabled, hlength, rfl, hdecode⟩,
    hcounts⟩

/-- A restore that succeeds found the imported file and brought the old containers back. -/
theorem ImportDone.inverts (h : ImportDone scope plan choice w.disk result w'.disk before after id)
    (himports : Imports service scope plan choice w result w')
    (hkept : later.disk.backups[id]? = w'.disk.backups[id]?)
    (hsame : NoFileCollision later.disk.stateBin w'.disk.stateBin) {r : Flow.ImportResult} {d : Disk}
    (hrestored : Restored scope id later.disk r d) :
    later.disk.stateBin = w'.disk.stateBin ∧ ∃ restored,
      d.state = .ok (d.stateBin, restored) ∧ restored.containers = before.containers ∧
      before.generation < restored.generation ∧ after.generation < restored.generation := by
  obtain ⟨hnamed, old, hold, horiginal, himported⟩ := h.readable himports hkept
  obtain ⟨⟨«namespace», old', bytes, state, original, encoded, hnamed', hold', hbytes, hsha, hstate,
    hcounts, hdecode, hencode, hfile, -⟩, hgrows⟩ := hrestored
  obtain rfl : plan.namespace = «namespace» := Except.ok.inj (hnamed.symm.trans hnamed')
  obtain rfl : old = old' := Except.ok.inj (hold.symm.trans hold')
  have hlater : later.disk.stateBin = w'.disk.stateBin := by
    apply hsame
    rw [hbytes, himported]
    exact hsha
  obtain ⟨henabled, -, -, hlaterDecode⟩ := Disk.state_eq_ok.mp hstate
  obtain ⟨-, -, -, hafter⟩ := Disk.state_eq_ok.mp h.newState
  obtain ⟨-, -, -, hbefore⟩ := Disk.state_eq_ok.mp h.oldState
  rw [hlater] at hlaterDecode
  obtain rfl : state = after := Except.ok.inj (hlaterDecode.symm.trans hafter)
  rw [horiginal] at hdecode
  obtain rfl : original = before := Except.ok.inj (hdecode.symm.trans hbefore)
  have hcount := generation_succ hcounts
  have hgeneration := h.generation
  refine ⟨hlater, { original with generation := state.generation + 1 },
    Disk.state_eq_ok.mpr ⟨hgrows.enabled.trans henabled, ?_, rfl, ?_⟩, rfl, ?_, ?_⟩
  · rw [hfile]
    exact decide_eq_true (encode_length hencode)
  · rw [hfile]
    exact decode_of_encode hencode
  · rw [UInt64.lt_iff_toNat_lt, hcount]
    omega
  · rw [UInt64.lt_iff_toNat_lt, hcount]
    omega

theorem import_restore (service : Service) (scope : Scope) : ImportLaws service scope where
  apply_fails plan choice w := (apply_triple w rfl).mono (fun _ _ _ => trivial) fun _ _ h => h.1
  restore_fails id w := (restore_triple w rfl).mono (fun _ _ _ => trivial) fun _ _ h => h
  imports plan choice w result w' h := by
    obtain ⟨state, selected, happlied⟩ := h.applied
    obtain ⟨id, hdone⟩ := happlied.done
    exact ⟨state, _, id, hdone⟩
  restores := by
    intro plan choice w result w' before after id later himports hdone hcounts hcalm henabled hkept
      hfresh hsame
    constructor
    · intro hsucceeded
      obtain ⟨r, end_, hrun⟩ := exists_of_succeeded hsucceeded
      have hends : Ends (Flow.restore service scope id later) _ _ := restore_triple later rfl
      rw [hrun] at hends
      exact (hdone.inverts himports hkept hsame hends).1
    · intro hfile
      obtain ⟨old, hrestorable⟩ := hdone.restorable himports hcounts henabled hkept hfile
      have hends := restore_calm hrestorable hfresh later ⟨hcalm, rfl, rfl⟩
      cases hrun : Flow.restore service scope id later with
      | ok r end_ => rfl
      | error e end_ =>
        rw [hrun] at hends
        exact hends.elim
  inverts plan choice w result w' before after id later himports hdone hkept hsame :=
    (restore_triple later rfl).mono (fun _ _ h => hdone.inverts himports hkept hsame h)
      fun _ _ _ => trivial
  publishes plan choice w := by
    refine (apply_triple w rfl).mono (fun result w' h => ?_) fun _ w' h =>
      ⟨h.1.grows.baseline, fun b hb => h.1.grows.loadBaseline hb⟩
    rcases h.1 with ⟨-, hsame⟩ | ⟨state, selected, happlied⟩
    · left
      rw [hsame]
      exact ⟨rfl, fun _ hb => hb⟩
    · rcases happlied.imported.baseline with ⟨-, hgrows⟩ | ⟨hdigest, b, hb, hloads, hresult⟩
      · exact Or.inl ⟨hgrows.baseline, fun b hb => hgrows.loadBaseline hb⟩
      · obtain ⟨remote, hremote, hcloud, -⟩ := happlied.remote
        obtain ⟨id, hdone⟩ := happlied.done
        exact Or.inr ⟨remote, _, b, hremote, hdone.newState,
          fun hsame => hsame (hdigest.trans hcloud.symm), hb, hloads, hresult⟩

/-! ## The last generation -/

def titleScope : Scope := ⟨"2", "00000000-0000-0000-0000-000000000001", "title", 1⟩

def emptySnapshot (binding : String) : Storage.Snapshot where
  id := "snapshot-00000000000000000000000000000000"
  scopeBinding := binding
  containerCount := 0
  blobCount := 0
  totalBytes := 0
  consistency := Storage.CONSISTENCY

/-- A snapshot of an empty cloud. -/
def emptyFolder (binding : String) : Storage.Folder where
  manifest := { schema := 1, scopeBinding := binding, consistency := Storage.CONSISTENCY, containers := [] }
  blobs := ∅

/-- An import, and the restore of its backup right after it. -/
def importThenRestore (service : Service) (scope : Scope) (plan : Import.Plan) (w : World) :
    Option Bool :=
  match Flow.apply service scope plan .cloud w with
  | .ok result w' =>
    match result.backupId with
    | some id =>
      if result.imported ∧ w'.alive ∧ w'.moves = [] ∧
          w'.disk.backups.contains ("backup-" ++ simpleUuid (service.uuid w'.draws)) = false then
        some (succeeded (Flow.restore service scope id w'))
      else none
    | none => none
  | .error _ _ => none

theorem importThenRestore_eq_false (h : importThenRestore service scope plan w = some false) :
    ∃ result w' id, Imports service scope plan .cloud w result w' ∧ result.backupId = some id ∧
      Calm w' ∧ w'.disk.backups.contains ("backup-" ++ simpleUuid (service.uuid w'.draws)) = false ∧
      succeeded (Flow.restore service scope id w') = false := by
  unfold importThenRestore at h
  cases hrun : Flow.apply service scope plan .cloud w with
  | error e w' =>
    rw [hrun] at h
    cases h
  | ok result w' =>
    rw [hrun] at h
    dsimp only at h
    cases hid : result.backupId with
    | none =>
      rw [hid] at h
      cases h
    | some id =>
      rw [hid] at h
      dsimp only at h
      split at h
      · rename_i hguard
        obtain ⟨himported, halive, hmoves, hfresh⟩ := hguard
        refine ⟨result, w', id, ⟨hrun, himported⟩, hid, ⟨halive, ?_⟩, hfresh, Option.some.inj h⟩
        rw [hmoves]
        exact nofun
      · cases h

end

section

local instance : Sha256 := standardSha256

/-- The disk of a state with the last generation but one. -/
def lastDisk : Except Error Disk := do
  let entry : Container := { displayName := "slot", modified := 0, blobs := ∅ }
  let data ← SaveState.encode ⟨18446744073709551614, (∅ : TextMap Container).insert "slot" entry⟩
  return {
    stateBin := some data
    snapshots := (∅ : TextMap Storage.Folder).insert "snapshot-00000000000000000000000000000000"
      (emptyFolder titleScope.binding) }

/-- The import of an empty cloud into it, and the restore. -/
def lastGeneration : Option Bool :=
  match lastDisk with
  | .ok disk =>
    match prepare titleScope (emptySnapshot titleScope.binding) none disk with
    | .ok plan => importThenRestore (countingService fun _ _ => ⟨⟨0, "", "", []⟩, ∅⟩) titleScope plan { disk }
    | .error _ => none
  | .error _ => none

theorem lastGeneration_eq : lastGeneration = some false := by decide +kernel

/-- An import whose backup cannot be restored although the file is the imported one and nothing
fails. -/
theorem last_generation_stays : ¬ ∀ (service : Service) (plan : Import.Plan) (w w' : World)
    (result : Flow.ImportResult) (id : String),
    Imports service titleScope plan .cloud w result w' → result.backupId = some id → Calm w' →
    w'.disk.backups.contains ("backup-" ++ simpleUuid (service.uuid w'.draws)) = false →
    succeeded (Flow.restore service titleScope id w') = true := by
  intro hclaim
  have hrun := lastGeneration_eq
  unfold lastGeneration at hrun
  cases hdisk : lastDisk with
  | error e =>
    rw [hdisk] at hrun
    cases hrun
  | ok disk =>
    rw [hdisk] at hrun
    dsimp only at hrun
    cases hplan : prepare titleScope (emptySnapshot titleScope.binding) none disk with
    | error e =>
      rw [hplan] at hrun
      cases hrun
    | ok plan =>
      rw [hplan] at hrun
      obtain ⟨result, w', id, himports, hid, hcalm, hfresh, hfails⟩ := importThenRestore_eq_false hrun
      rw [hclaim _ plan _ w' result id himports hid hcalm hfresh] at hfails
      cases hfails

end

end Flightdeck.Cloud.Session
