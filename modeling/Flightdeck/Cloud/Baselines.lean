import Flightdeck.Cloud.Exports

/-!
# Publishing a baseline

A baseline stays loadable while receipts and backups are only added, and a pointer to a new receipt
of a backup makes the content of that backup the baseline.
-/

namespace Flightdeck.Cloud

open Foundation SaveState

theorem fromUTF8?_utf8 (value : String) : String.fromUTF8? ⟨(utf8 value).toArray⟩ = some value := by
  have h := fromUtf8_eq_ok.mpr (rfl : utf8 value = utf8 value)
  unfold fromUtf8 at h
  cases hvalue : String.fromUTF8? ⟨(utf8 value).toArray⟩ with
  | none =>
    rw [hvalue] at h
    cases h
  | some read =>
    rw [hvalue] at h
    rw [Except.ok.inj h]

theorem stripSuffix_append (value suffix : String) :
    Import.stripSuffix (value ++ suffix) suffix = some value := by
  have hsuffix : (utf8 suffix).isSuffixOf (utf8 value ++ utf8 suffix) = true :=
    List.isSuffixOf_iff_suffix.mpr (List.suffix_append _ _)
  have htake : (utf8 value ++ utf8 suffix).take
      ((utf8 value ++ utf8 suffix).length - (utf8 suffix).length) = utf8 value := by
    rw [List.length_append, Nat.add_sub_cancel, List.take_left]
  unfold Import.stripSuffix
  simp only [utf8_append, hsuffix, if_true, htake]
  exact fromUTF8?_utf8 value

namespace Session

variable [Sha256] {scope : Scope} {disk disk' : Disk} {binding «namespace» : String}

/-- What the closure of `load_baseline` checks of a receipt and its backup. -/
structure Proven (receipts : TextMap Import.CommonReceipt) (backups : TextMap Import.Backup)
    (binding «namespace» : String) (pointer : Import.Pointer) (b : Import.Baseline) : Prop where
  names : (pointer.schema == 1 && pointer.scopeBinding == binding &&
    pointer.namespace == «namespace» &&
    (Import.stripSuffix pointer.receipt ".json").any (identifier · "backup-")) = true
  proof : ∃ receipt, receipts[pointer.receipt]? = some receipt ∧
    sha256 receipt.toVec = pointer.sha256 ∧
    (receipt.schema == 1 && (receipt.kind == "import" || receipt.kind == "sync") &&
      receipt.scopeBinding == binding && receipt.namespace == «namespace» &&
      Import.receiptName receipt.backupId == pointer.receipt) = true ∧
    ∃ backup state digest,
      Import.backupData backups binding «namespace» receipt.backupId = .ok backup ∧
      Import.decode backup.imported = .ok state ∧ Import.digest state = .ok digest ∧
      receipt.importedSha256 = backup.metadata.replacementSha256 ∧
      receipt.contentDigest = digest ∧ Import.baseline binding state = .ok b

theorem provenBaseline_eq_ok {receipts : TextMap Import.CommonReceipt}
    {backups : TextMap Import.Backup} {pointer : Import.Pointer} {b : Import.Baseline} :
    Import.provenBaseline receipts backups binding «namespace» pointer = .ok b ↔
      Proven receipts backups binding «namespace» pointer b := by
  unfold Import.provenBaseline
  constructor
  · intro h
    obtain ⟨_, hpointer, h⟩ := bind_eq_ok.mp h
    cases hreceipt : receipts[pointer.receipt]? with
    | none =>
      rw [hreceipt] at h
      cases h
    | some receipt =>
      rw [hreceipt] at h
      simp only [bind_eq_ok, require_ok] at h
      obtain ⟨_, hsha, _, hchecks, backup, hbackup, state, hstate, digest, hdigest, _, hsame,
        hbaseline⟩ := h
      rw [Bool.and_eq_true, beq_iff_eq, beq_iff_eq] at hsame
      exact ⟨require_ok.mp hpointer, receipt, hreceipt, beq_iff_eq.mp hsha, hchecks, backup, state,
        digest, hbackup, hstate, hdigest, hsame.1, hsame.2, hbaseline⟩
  · rintro ⟨hpointer, receipt, hreceipt, hsha, hchecks, backup, state, digest, hbackup, hstate,
      hdigest, himported, hcontent, hbaseline⟩
    rw [hpointer, hreceipt]
    simp only [bind_eq_ok, require_ok]
    refine ⟨(), trivial, (), beq_iff_eq.mpr hsha, (), hchecks, backup, hbackup, state, hstate, digest,
      hdigest, (), ?_, hbaseline⟩
    rw [himported, hcontent, beq_self_eq_true, beq_self_eq_true]
    rfl

theorem Proven.mono {receipts receipts' : TextMap Import.CommonReceipt}
    {backups backups' : TextMap Import.Backup} {pointer : Import.Pointer} {b : Import.Baseline}
    (h : Proven receipts backups binding «namespace» pointer b)
    (hreceipts : Included receipts receipts') (hbackups : Included backups backups') :
    Proven receipts' backups' binding «namespace» pointer b := by
  obtain ⟨hpointer, receipt, hreceipt, hsha, hchecks, backup, state, digest, hbackup, hrest⟩ := h
  obtain ⟨hid, hget, hok⟩ := backupData_eq_ok.mp hbackup
  exact ⟨hpointer, receipt, hreceipts _ _ hreceipt, hsha, hchecks, backup, state, digest,
    backupData_eq_ok.mpr ⟨hid, hbackups _ _ hget, hok⟩, hrest⟩

theorem loadBaseline_eq_ok {b : Option Import.Baseline} : loadBaseline scope disk = .ok b ↔
    ∃ «namespace», scope.namespace = .ok «namespace» ∧ disk.enabled = true ∧
      match disk.baseline with
      | none => b = none
      | some pointer => ∃ value, b = some value ∧
          Proven disk.receipts disk.backups scope.binding «namespace» pointer value := by
  unfold loadBaseline
  simp only [mapError_eq_ok, bind_eq_ok, require_ok]
  cases disk.baseline with
  | none =>
    constructor
    · rintro ⟨«namespace», hnamespace, _, henabled, h⟩
      cases h
      exact ⟨«namespace», hnamespace, henabled, rfl⟩
    · rintro ⟨«namespace», hnamespace, henabled, rfl⟩
      exact ⟨«namespace», hnamespace, (), henabled, rfl⟩
  | some pointer =>
    simp only [map_eq_ok, provenBaseline_eq_ok]
    constructor
    · rintro ⟨«namespace», hnamespace, _, henabled, value, hvalue, rfl⟩
      exact ⟨«namespace», hnamespace, henabled, value, rfl, hvalue⟩
    · rintro ⟨«namespace», hnamespace, henabled, value, rfl, hvalue⟩
      exact ⟨«namespace», hnamespace, (), henabled, value, hvalue, rfl⟩

/-- The pointer stays, and receipts and backups are only added. -/
structure Grows (disk disk' : Disk) : Prop where
  enabled : disk'.enabled = disk.enabled
  baseline : disk'.baseline = disk.baseline
  receipts : Included disk.receipts disk'.receipts
  backups : Included disk.backups disk'.backups

omit [Sha256] in
theorem Grows.trans {d : Disk} (h : Grows disk disk') (h' : Grows disk' d) : Grows disk d :=
  ⟨h'.enabled.trans h.enabled, h'.baseline.trans h.baseline, h.receipts.trans h'.receipts,
    h.backups.trans h'.backups⟩

theorem Grows.loadBaseline {b : Option Import.Baseline} (h : Grows disk disk')
    (hb : loadBaseline scope disk = .ok b) : loadBaseline scope disk' = .ok b := by
  obtain ⟨«namespace», hnamespace, henabled, hpointer⟩ := loadBaseline_eq_ok.mp hb
  refine loadBaseline_eq_ok.mpr ⟨«namespace», hnamespace, h.enabled.trans henabled, ?_⟩
  rw [h.baseline]
  cases hbaseline : disk.baseline with
  | none =>
    rw [hbaseline] at hpointer
    exact hpointer
  | some pointer =>
    rw [hbaseline] at hpointer
    obtain ⟨value, rfl, hproven⟩ := hpointer
    exact ⟨value, rfl, hproven.mono h.receipts h.backups⟩

/-! ## Publishing -/

/-- Only receipts were added. -/
def ReceiptsAdded (disk d : Disk) : Prop :=
  ∃ receipts, d = { disk with receipts } ∧ Included disk.receipts receipts

omit [Sha256] in
theorem ReceiptsAdded.grows {d : Disk} (h : ReceiptsAdded disk d) : Grows disk d := by
  obtain ⟨receipts, rfl, hreceipts⟩ := h
  exact ⟨rfl, rfl, hreceipts, Included.refl _⟩

/-- The pointer was replaced, and `load_baseline` finds `b` behind the new one. -/
structure BaselinePublished (scope : Scope) (disk : Disk) (b : Import.Baseline) (d : Disk) : Prop where
  rest : ∃ receipts baseline, d = { disk with receipts, baseline }
  loads : loadBaseline scope d = .ok (some b)

/-- A backup that is published as the baseline `b`. -/
structure Publishable (scope : Scope) («namespace» id : String) (encoded : Bytes)
    (b : Import.Baseline) (disk : Disk) : Prop where
  named : scope.namespace = .ok «namespace»
  enabled : disk.enabled = true
  backup : ∃ backup, Import.backupData disk.backups scope.binding «namespace» id = .ok backup ∧
    backup.imported = encoded
  state : ∃ state, Import.decode encoded = .ok state ∧ Import.baseline scope.binding state = .ok b

variable {service : Service} {id kind : String} {encoded : Bytes} {b : Import.Baseline}

/-- The receipt that `publish_common` writes. -/
def receiptOf (scope : Scope) («namespace» id kind digest : String) (encoded : Bytes) :
    Import.CommonReceipt where
  kind
  scopeBinding := scope.binding
  «namespace» := «namespace»
  backupId := id
  importedSha256 := sha256 encoded
  contentDigest := digest

theorem Publishable.proven {digest : String} {state : State}
    (h : Publishable scope «namespace» id encoded b disk)
    (hstate : Import.decode encoded = .ok state) (hdigest : Import.digest state = .ok digest)
    (hkind : kind = "import" ∨ kind = "sync") {receipts : TextMap Import.CommonReceipt}
    (hreceipts : receipts[Import.receiptName id]? =
      some (receiptOf scope «namespace» id kind digest encoded)) :
    Proven receipts disk.backups scope.binding «namespace»
      { scopeBinding := scope.binding, «namespace», receipt := Import.receiptName id
        sha256 := sha256 (receiptOf scope «namespace» id kind digest encoded).toVec } b := by
  obtain ⟨backup, hbackup, himported⟩ := h.backup
  obtain ⟨state', hstate', hb⟩ := h.state
  obtain ⟨hid, -, hok⟩ := backupData_eq_ok.mp hbackup
  cases hstate.symm.trans hstate'
  refine ⟨?_, _, hreceipts, rfl, ?_, backup, state, digest, hbackup, ?_, hdigest, ?_, rfl, hb⟩
  · simp only [Import.receiptName, stripSuffix_append, Option.any_some, hid, beq_self_eq_true,
      Bool.and_self]
  · rcases hkind with rfl | rfl <;> simp only [receiptOf, beq_self_eq_true, Bool.and_self,
      Bool.true_or, Bool.or_true]
  · rw [himported]
    exact hstate
  · rw [← hok.imported, himported]
    rfl

theorem publishCommon_triple (h : Publishable scope «namespace» id encoded b disk)
    (hkind : kind = "import" ∨ kind = "sync") {E : Failure → World → Prop}
    (hE : ∀ f w, OnDisk (ReceiptsAdded disk) w → E f w)
    (hpublished : ∀ f w, OnDisk (BaselinePublished scope disk b) w → E f w) :
    Triple (OnDisk (· = disk)) (Flow.publishCommon service scope «namespace» id encoded kind)
      (fun _ => OnDisk (BaselinePublished scope disk b)) E := by
  have hsame : ∀ f w, OnDisk (· = disk) w → E f w := fun f w hw =>
    hE f w (by rw [OnDisk, show w.disk = disk from hw]; exact ⟨disk.receipts, rfl, Included.refl _⟩)
  refine (lift_onDisk hsame).bind fun state => fixed_onDisk fun hstate => ?_
  refine (lift_onDisk hsame).bind fun digest => fixed_onDisk fun hdigest => ?_
  refine (writing_onDisk (Q := fun _ d => ∃ receipts, d = { disk with receipts } ∧
      Included disk.receipts receipts ∧ receipts[Import.receiptName id]? =
        some (receiptOf scope «namespace» id kind digest encoded)) hsame
    (fun _ f w hw => ?_) fun d n _ d' hd hwrite => ?_).bind fun _ => ?_
  · obtain ⟨receipts, hd, hreceipts, -⟩ := hw
    exact hE f w ⟨receipts, hd, hreceipts⟩
  · cases hd
    split at hwrite
    · cases hwrite
    · rename_i hfresh
      cases hwrite
      exact ⟨_, rfl, Included.insert _ (Bool.eq_false_iff.mpr hfresh),
        (getElem?_insert_eq _ _ _ _).trans (if_pos rfl)⟩
  · refine writing_onDisk (fun f w hw => ?_) (fun _ f w hw => hpublished f w hw)
      fun d n _ d' hd hwrite => ?_
    · obtain ⟨receipts, hd, hreceipts, -⟩ := hw
      exact hE f w ⟨receipts, hd, hreceipts⟩
    · obtain ⟨receipts, rfl, -, hreceipt⟩ := hd
      cases hwrite
      refine ⟨⟨receipts, _, rfl⟩, loadBaseline_eq_ok.mpr ⟨«namespace», h.named, h.enabled, b,
        rfl, ?_⟩⟩
      exact h.proven hstate hdigest hkind hreceipt

/-- A publication whose failure is ignored. -/
theorem publishAttempt_triple (h : Publishable scope «namespace» id encoded b disk)
    (hkind : kind = "import" ∨ kind = "sync") {E : Failure → World → Prop} :
    Triple (OnDisk (· = disk)) (attempt (Flow.publishCommon service scope «namespace» id encoded kind))
      (fun r => OnDisk fun d => (r = .ok () → BaselinePublished scope disk b d) ∧
        (ReceiptsAdded disk d ∨ BaselinePublished scope disk b d)) E := by
  apply Triple.attempt
  refine (publishCommon_triple h hkind (E := fun _ => OnDisk fun d =>
    ReceiptsAdded disk d ∨ BaselinePublished scope disk b d) (fun _ _ h => Or.inl h)
    (fun _ _ h => Or.inr h)).mono (fun _ h => h) (fun _ _ h => ⟨fun _ => h, Or.inr h⟩)
    fun _ _ h => ⟨nofun, h⟩

end Session

end Flightdeck.Cloud
