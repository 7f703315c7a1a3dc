import Flightdeck.Components.Update

/-!
# Interrupted updates

An update that stops anywhere leaves the disk in one of three states: no journal, a journal with a
complete backup, or a journal with everything installed.  Recovery leads from each of them to a
runtime that is entirely old or entirely new.
-/

namespace Flightdeck.Components

open Foundation

section

variable [Sha256]

/-! ## Removing a backup -/

/-- Something strikes between the first removal of a backup file and the removal of the journal. -/
def Course.CutsOff (course : Course) (phase : Phase) : Prop :=
  (∃ m, course.fault (.removeFile phase m) ≠ .none) ∨
    course.fault (.removeFolder phase) ≠ .none ∨
    (course.fault (.removeJournal phase)).passes = false

/-- Some effect is struck. -/
def Course.Struck (course : Course) : Prop := ∃ site, course.fault site ≠ .none

/-- Journal and files are these. -/
def Keeps (journal : Option (Document Journal)) (files : Folder) (disk : Disk) : Prop :=
  disk.journal = journal ∧ disk.files = files

omit [Sha256] in
theorem removeAll_triple (course : Course) (phase : Phase) (name : String)
    (journal : Option (Document Journal)) (files : Folder) :
    Triple (Keeps journal files) (removeAll course phase name)
      (fun _ disk => Keeps journal files disk ∧ disk.folders name = none)
      fun _ disk => Keeps journal files disk ∧
        course.Struck ∧ course.CutsOff phase := by
  have hfile : ∀ m, course.fault (.removeFile phase m) ≠ .none →
      course.Struck ∧ course.CutsOff phase := fun m h => ⟨⟨_, h⟩, .inl ⟨m, h⟩⟩
  have hfolder : course.fault (.removeFolder phase) ≠ .none →
      course.Struck ∧ course.CutsOff phase := fun h => ⟨⟨_, h⟩, .inr (.inl h)⟩
  refine Triple.bind (Q := fun _ => Keeps journal files) ?_ fun _ => ?_
  · apply Triple.forM (I := fun _ => Keeps journal files)
    rintro done m rest -
    apply Triple.get_bind
    intro disk hdisk
    cases hname : disk.folders name with
    | none =>
      rintro _ rfl
      exact hdisk
    | some folder =>
      apply Triple.ite
      · intro _
        apply Triple.perform
        · rintro - _ rfl
          exact hdisk
        · rintro hfault _ rfl
          have hcut := hfile m (Fault.ne_none_of_passes hfault)
          exact ⟨⟨hdisk, hcut⟩, hdisk, hcut⟩
        · exact fun _ hfault _ now h => ⟨⟨h, hfile m hfault⟩, h, hfile m hfault⟩
      · rintro _ _ rfl
        exact hdisk
  · apply Triple.perform
    · exact fun _ => Triple.update fun disk h => ⟨h, Function.update_self ..⟩
    · intro hfault disk h
      have hcut := hfolder (Fault.ne_none_of_passes hfault)
      exact ⟨⟨h, hcut⟩, h, hcut⟩
    · exact fun _ hfault _ disk h => ⟨⟨h.1, hfolder hfault⟩, h.1, hfolder hfault⟩

/-- The update is over: no journal and no backup are left. -/
def Over (name : String) (files : Folder) (disk : Disk) : Prop :=
  Keeps none files disk ∧ disk.folders name = none

/-- How a cleanup can break off: before it changed anything, after the journal was removed, or in
between. -/
def Broken (course : Course) (phase : Phase) (name : String) (before disk : Disk) : Prop :=
  course.Struck ∧ (disk = before ∨ Over name before.files disk ∨
    (Keeps before.journal before.files disk ∧ course.CutsOff phase))

omit [Sha256] in
theorem removeJournal_triple (course : Course) (phase : Phase) (name : String) (before : Disk) :
    Triple (fun disk => Keeps before.journal before.files disk ∧ disk.folders name = none)
      (removeJournal course phase) (fun _ => Over name before.files)
      fun _ => Broken course phase name before := by
  refine Triple.bind (Q := fun _ => Over name before.files) ?_ fun _ => ?_
  · apply Triple.perform
    · exact fun _ => Triple.update fun disk h => ⟨⟨rfl, h.1.2⟩, h.2⟩
    · intro hfault disk h
      have hbroken : Broken course phase name before disk :=
        ⟨⟨_, Fault.ne_none_of_passes hfault⟩, .inr (.inr ⟨h.1, .inr (.inr hfault)⟩)⟩
      exact ⟨hbroken, hbroken⟩
    · exact fun _ hfault _ disk h => ⟨⟨⟨_, hfault⟩, .inr (.inl h)⟩, ⟨_, hfault⟩, .inr (.inl h)⟩
  · apply Triple.perform
    · exact fun _ disk h => h
    · intro hfault disk h
      have hstruck : course.Struck := ⟨_, Fault.ne_none_of_passes hfault⟩
      exact ⟨⟨hstruck, .inr (.inl h)⟩, hstruck, .inr (.inl h)⟩
    · exact fun _ hfault _ disk h => ⟨⟨⟨_, hfault⟩, .inr (.inl h)⟩, ⟨_, hfault⟩, .inr (.inl h)⟩

omit [Sha256] in
theorem cleanup_triple (course : Course) (phase : Phase) (name : String) (before : Disk) :
    Triple (· = before) (cleanup course phase name) (fun _ => Over name before.files)
      fun _ => Broken course phase name before := by
  apply Triple.get_bind
  rintro before rfl
  apply Triple.ite
  · intro _
    refine Triple.bind (Q := fun _ => (· = before)) ?_ fun _ => ?_
    · apply Triple.perform
      · exact fun _ _ h => h
      · intro hfault disk h
        have hstruck : course.Struck := ⟨_, Fault.ne_none_of_passes hfault⟩
        exact ⟨⟨hstruck, .inl h⟩, hstruck, .inl h⟩
      · exact fun _ hfault _ disk h => ⟨⟨⟨_, hfault⟩, .inl h⟩, ⟨_, hfault⟩, .inl h⟩
    · refine Triple.bind ?_ fun _ => removeJournal_triple course phase name before
      apply (removeAll_triple course phase name before.journal before.files).mono
      · rintro _ rfl
        exact ⟨rfl, rfl⟩
      · exact fun _ _ h => h
      · exact fun _ disk h => ⟨h.2.1, .inr (.inr ⟨h.1, h.2.2⟩)⟩
  · intro hnone
    apply (removeJournal_triple course phase name before).pre
    rintro _ rfl
    exact ⟨⟨rfl, rfl⟩, by simpa using hnone⟩

/-! ## Versions -/

/-- Every target, every script that is updated and the manifest are in the new version. -/
structure Updated [ManifestText] (p : Pending) (files : Folder) : Prop where
  targets : ∀ t, ∃ file, files (.target t) = some file ∧ sha256 file.bytes = p.after t.component
  scripts : ∀ hashes, p.scripts = some hashes → ∀ s, ∃ file, files (.script s) = some file ∧
    file.executable = true ∧ sha256 file.bytes = hashes.2 s
  manifest : ∃ record, readManifest files = .ok (record, p.after) ∧
    ∀ hashes, p.scripts = some hashes → ∃ rows, record.runtimeFiles = some rows ∧
      Hashes.sameRows hashes.2 rows = true

omit [Sha256] in
theorem owned_eq_ok {found : Option File} {file : File} :
    owned found = .ok file ↔ found = some file := by
  cases found with
  | none => simp [owned]
  | some f => simp [owned]

theorem verifyTargets_eq_ok {files : Folder} {expected : Hashes Component} :
    verifyTargets files expected = .ok () ↔
      ∀ t, ∃ file, files (.target t) = some file ∧ sha256 file.bytes = expected t.component := by
  unfold verifyTargets
  rw [forM_eq_ok]
  simp only [bind_eq_ok, owned_eq_ok, require_eq_ok, File.is, beq_iff_eq]
  exact ⟨fun h t => h t t.mem_all, fun h t _ => h t⟩

theorem verifyScripts_eq_ok {files : Folder} {expected : Option (Hashes Script)} :
    verifyScripts files expected = .ok () ↔
      ∀ hashes, expected = some hashes → ∀ s, ∃ file, files (.script s) = some file ∧
        file.executable = true ∧ sha256 file.bytes = hashes s := by
  unfold verifyScripts
  cases expected with
  | none =>
    constructor
    · exact fun _ _ h => nomatch h
    · exact fun _ => rfl
  | some expected =>
    change (Named.all : List Script).forM _ = Except.ok () ↔ _
    rw [forM_eq_ok]
    simp only [bind_eq_ok, owned_eq_ok, require_eq_ok, File.is, Bool.and_eq_true, beq_iff_eq]
    constructor
    · rintro h _ ⟨⟩ s
      exact h s (Named.mem_all s)
    · exact fun h s _ => h expected rfl s

theorem installed_iff [ManifestText] {p : Pending} {files : Folder} :
    p.installed files = true ↔ Updated p files := by
  have hisOk : ∀ x : Except Error Unit, x.isOk = true ↔ x = .ok () := by
    intro x
    cases x with
    | ok u => exact ⟨fun _ => rfl, fun _ => rfl⟩
    | error e => exact ⟨nofun, nofun⟩
  unfold Pending.installed
  rw [Bool.and_eq_true, Bool.and_eq_true, hisOk, hisOk, verifyTargets_eq_ok, verifyScripts_eq_ok]
  constructor
  · rintro ⟨⟨hmanifest, htargets⟩, hscripts⟩
    refine ⟨htargets, fun hashes hp => hscripts hashes.2 (by rw [hp]; rfl), ?_⟩
    cases hread : readManifest files with
    | error e =>
      rw [hread] at hmanifest
      cases hmanifest
    | ok found =>
      rw [hread, Bool.and_eq_true, beq_iff_eq] at hmanifest
      obtain ⟨hcurrent, hrows⟩ := hmanifest
      refine ⟨found.1, by rw [← hcurrent], fun hashes hp => ?_⟩
      rw [hp] at hrows
      cases hfiles : found.1.runtimeFiles with
      | none =>
        rw [hfiles] at hrows
        cases hrows
      | some rows =>
        rw [hfiles] at hrows
        exact ⟨rows, rfl, hrows⟩
  · intro h
    obtain ⟨record, hread, hrows⟩ := h.manifest
    refine ⟨⟨?_, h.targets⟩, ?_⟩
    · rw [hread]
      change (p.after == p.after && p.scripts.all _) = true
      rw [beq_self_eq_true, Bool.true_and]
      cases hp : p.scripts with
      | none => rfl
      | some hashes =>
        obtain ⟨rows, hfiles, hsame⟩ := hrows hashes hp
        change record.runtimeFiles.any _ = true
        rw [hfiles]
        exact hsame
    · intro hashes hp
      cases hscripts : p.scripts with
      | none =>
        rw [hscripts] at hp
        cases hp
      | some both =>
        rw [hscripts] at hp
        cases hp
        exact h.scripts both hscripts

/-- The hashes of the journal are well formed. -/
structure Pending.WellFormed (p : Pending) : Prop where
  backup : Cloud.identifier p.backup ".component-" = true
  before : ∀ c, hexDigest (p.before c) = true
  after : ∀ c, hexDigest (p.after c) = true
  scripts : ∀ hashes, p.scripts = some hashes →
    (∀ s, hexDigest (hashes.1 s) = true) ∧ ∀ s, hexDigest (hashes.2 s) = true
  manifest : hexDigest p.manifestSha256 = true

omit [Sha256] in
theorem check_journal {p : Pending} (h : p.WellFormed) : p.journal.check = .ok p := by
  obtain ⟨backup, before, after, manifestSha256, scripts⟩ := p
  cases scripts with
  | none =>
    unfold Journal.check
    simp only [Pending.journal, h.backup, hashes_rows h.before, hashes_rows h.after, h.manifest]
    rfl
  | some both =>
    obtain ⟨hbefore, hafter⟩ := h.scripts both rfl
    unfold Journal.check
    simp only [Pending.journal, h.backup, hashes_rows h.before, hashes_rows h.after, h.manifest,
      Option.map_some, Option.getD_some, hashes_rows hbefore, hashes_rows hafter]
    rfl

/-! ## Recovery -/

omit [Sha256] in
theorem target_mem_scope (t : Target) (scripts : Bool) : .target t ∈ scope scripts :=
  List.mem_append_left _ (List.mem_append_left _ (List.mem_map_of_mem t.mem_all))

omit [Sha256] in
theorem manifest_mem_scope (scripts : Bool) : .manifest ∈ scope scripts :=
  List.mem_append_right _ (List.mem_singleton_self _)

omit [Sha256] in
theorem script_mem_scope (s : Script) : .script s ∈ scope true :=
  List.mem_append_left _ (List.mem_append_right _ (List.mem_map_of_mem (Named.mem_all s)))

/-- The files before an update, which its journal describes. -/
structure Original (p : Pending) (before : Folder) : Prop where
  wellFormed : p.WellFormed
  files : ∀ m ∈ scope p.scripts.isSome, ∃ file, before m = some file ∧ file.is (p.expected m) = true
  executable : ∀ s file, p.scripts.isSome → before (.script s) = some file →
    file.executable = true

/-- The update can still be undone. -/
structure Intact (p : Pending) (before : Folder) (disk : Disk) : Prop where
  journal : disk.journal = some (.value p.journal)
  backup : ∃ folder, disk.folders p.backup = some folder ∧
    ∀ m ∈ scope p.scripts.isSome, folder m = before m
  present : ∀ m ∈ scope p.scripts.isSome, (disk.files m).isSome
  others : ∀ m, m ∉ scope p.scripts.isSome → disk.files m = before m

omit [Sha256] in
theorem Intact.write {p : Pending} {before : Folder} {disk : Disk} {m : Managed}
    (h : Intact p before disk) (hm : m ∈ scope p.scripts.isSome) (file : File) :
    Intact p before (disk.write m file) := by
  refine ⟨h.journal, h.backup, fun m' hm' => ?_, fun m' hm' => ?_⟩
  · by_cases hmm : m' = m
    · subst hmm
      simp [Disk.write]
    · simpa [Disk.write, hmm] using h.present m' hm'
  · have hmm : m' ≠ m := fun h => hm' (h ▸ hm)
    simpa [Disk.write, hmm] using h.others m' hm'

/-- The update is done but for its cleanup. -/
structure Complete [ManifestText] (p : Pending) (disk : Disk) : Prop where
  journal : disk.journal = some (.value p.journal)
  updated : Updated p disk.files

/-- The update is over, and the runtime entirely old or entirely new. -/
structure Settled [ManifestText] (p : Pending) (before : Folder) (disk : Disk) : Prop where
  journal : disk.journal = none
  backup : disk.folders p.backup = none
  files : disk.files = before ∨ Updated p disk.files

theorem verifyBackup_eq_ok {p : Pending} {before folder files : Folder} (h : Original p before)
    (hfolder : ∀ m ∈ scope p.scripts.isSome, folder m = before m)
    (hpresent : ∀ m ∈ scope p.scripts.isSome, (files m).isSome) :
    p.verifyBackup folder files = .ok () := by
  have howned : ∀ m ∈ scope p.scripts.isSome, discard (owned (files m)) = .ok () := by
    intro m hm
    obtain ⟨file, hfile⟩ := Option.isSome_iff_exists.mp (hpresent m hm)
    rw [hfile]
    rfl
  have htarget : ∀ t, ∃ file, folder (.target t) = some file ∧
      file.is (p.before t.component) = true := by
    intro t
    rw [hfolder _ (target_mem_scope t _)]
    exact h.files _ (target_mem_scope t _)
  have hscripts : verifyScripts folder (p.scripts.map Prod.fst) = .ok () := by
    rw [verifyScripts_eq_ok]
    intro hashes hp s
    obtain ⟨both, hboth, rfl⟩ := Option.map_eq_some_iff.mp hp
    have hs : .script s ∈ scope p.scripts.isSome := by
      rw [hboth]
      exact script_mem_scope s
    obtain ⟨file, hfile, his⟩ := h.files _ hs
    have hsome : p.scripts.isSome := by
      rw [hboth]
      rfl
    refine ⟨file, (hfolder _ hs).trans hfile, h.executable s file hsome hfile, ?_⟩
    unfold File.is Pending.expected at his
    rw [hboth] at his
    exact beq_iff_eq.mp his
  have hpresentScripts : (if p.scripts.isSome then
      (Named.all : List Script).forM fun s => discard (owned (files (.script s))) else pure ()) =
      (Except.ok () : Except Error Unit) := by
    split
    case isTrue hsome =>
      rw [forM_eq_ok]
      intro s _
      apply howned
      rw [hsome]
      exact script_mem_scope s
    case isFalse => rfl
  obtain ⟨manifest, hmanifest, his⟩ := h.files .manifest (manifest_mem_scope _)
  unfold Pending.verifyBackup
  rw [hfolder _ (manifest_mem_scope _), hmanifest]
  change (require (manifest.is p.manifestSha256) BACKUP_CHANGED >>= _) = _
  change manifest.is p.manifestSha256 = true at his
  rw [his, require_true]
  change (verifyScripts folder (p.scripts.map Prod.fst) >>= _) = _
  rw [hscripts]
  have hlast : (Target.all.forM fun t => do
      let file ← owned (folder (.target t))
      require (file.is (p.before t.component)) BACKUP_CHANGED
      discard (owned (files (.target t)))) = Except.ok () := by
    rw [forM_eq_ok]
    intro t _
    obtain ⟨file, hfile, hhash⟩ := htarget t
    rw [hfile]
    change (require (file.is (p.before t.component)) BACKUP_CHANGED >>= _) = _
    rw [hhash, require_true]
    exact howned _ (target_mem_scope t _)
  by_cases hsome : p.scripts.isSome = true
  · rw [if_pos hsome] at hpresentScripts
    change (if p.scripts.isSome = true then _ else _) = _
    rw [if_pos hsome, hpresentScripts]
    exact hlast
  · change (if p.scripts.isSome = true then _ else _) = _
    rw [if_neg hsome]
    exact hlast

theorem restoreFile_triple {p : Pending} {before : Folder} (h : Original p before)
    (course : Course) {done : List Managed} {m : Managed} (hm : m ∈ scope p.scripts.isSome) :
    Triple (fun disk => Intact p before disk ∧ ∀ m ∈ done, disk.files m = before m)
      (restoreFile course p m)
      (fun _ disk => Intact p before disk ∧ ∀ m' ∈ done ++ [m], disk.files m' = before m')
      fun _ disk => course.Struck ∧ Intact p before disk := by
  apply Triple.get_bind
  rintro disk ⟨hintact, hdone⟩
  obtain ⟨folder, hfolder, hsame⟩ := hintact.backup
  obtain ⟨file, hfile, his⟩ := h.files m hm
  rw [hfolder]
  change Triple _ (liftM (owned (folder m)) >>= _) _ _
  rw [hsame m hm, hfile]
  change Triple _ (liftM (require (file.is (p.expected m)) _) >>= _) _ _
  rw [his, require_true, check_ok_bind]
  apply Triple.perform
  · rintro - _ rfl
    refine ⟨hintact.write hm file, fun m' hm' => ?_⟩
    by_cases hmm : m' = m
    · subst hmm
      simp [Disk.write, hfile]
    · have hbefore := hdone m' ((List.mem_append.mp hm').resolve_right (by simpa using hmm))
      simpa [Disk.write, hmm] using hbefore
  · rintro hfault _ rfl
    have hstruck : course.Struck := ⟨_, Fault.ne_none_of_passes hfault⟩
    exact ⟨⟨hstruck, hintact⟩, hstruck, hintact⟩
  · exact fun _ hfault _ now hnow => ⟨⟨⟨_, hfault⟩, hnow.1⟩, ⟨_, hfault⟩, hnow.1⟩

/-- The cleanup of an update that is done. -/
theorem cleanup_updated [ManifestText] {p : Pending} {before : Folder} {disk : Disk}
    (hjournal : disk.journal = some (.value p.journal)) (hupdated : Updated p disk.files)
    (course : Course) :
    Triple (· = disk) (cleanup course .installed p.backup) (fun _ => Settled p before)
      fun _ now => course.Struck ∧ (Complete p now ∨ Settled p before now) := by
  have hover : ∀ now, Over p.backup disk.files now → Settled p before now := fun now hnow =>
    ⟨hnow.1.1, hnow.2, .inr (hnow.1.2 ▸ hupdated)⟩
  apply (cleanup_triple course .installed p.backup disk).mono (fun _ h => h)
  · exact fun _ => hover
  · rintro _ now ⟨hstruck, rfl | hnow | ⟨⟨hkept, hfiles⟩, -⟩⟩
    · exact ⟨hstruck, .inl ⟨hjournal, hupdated⟩⟩
    · exact ⟨hstruck, .inr (hover now hnow)⟩
    · exact ⟨hstruck, .inl ⟨hkept.trans hjournal, hfiles ▸ hupdated⟩⟩

theorem recover_triple [ManifestText] {p : Pending} {before : Folder} (h : Original p before)
    {course : Course} (hsafe : ¬ course.CutsOff .restored) :
    Triple (fun disk => Intact p before disk ∨ Complete p disk) (recover course)
      (fun _ => Settled p before)
      fun _ disk => course.Struck ∧
        (Intact p before disk ∨ Complete p disk ∨ Settled p before disk) := by
  apply Triple.get_bind
  intro disk hdisk
  have hjournal : disk.journal = some (.value p.journal) := by
    rcases hdisk with hdisk | hdisk
    · exact hdisk.journal
    · exact hdisk.journal
  rw [hjournal]
  change Triple _ (liftM p.journal.check >>= _) _ _
  rw [check_journal h.wellFormed, check_ok_bind]
  apply Triple.ite
  · intro hinstalled
    apply (cleanup_updated hjournal (installed_iff.mp hinstalled) course).mono (fun _ h => h)
    · exact fun _ _ h => h
    · exact fun _ _ h => ⟨h.1, .inr h.2⟩
  · intro hinstalled
    have hintact : Intact p before disk :=
      hdisk.resolve_right fun hcomplete => hinstalled (installed_iff.mpr hcomplete.updated)
    obtain ⟨folder, hfolder, hsame⟩ := hintact.backup
    rw [hfolder]
    change Triple _ (liftM (p.verifyBackup folder disk.files) >>= _) _ _
    rw [verifyBackup_eq_ok h hsame hintact.present, check_ok_bind]
    refine Triple.bind (Q := fun _ now => Intact p before now ∧
      ∀ m ∈ scope p.scripts.isSome, now.files m = before m) ?_ fun _ => ?_
    · apply Triple.pre (P := fun now => Intact p before now ∧
        ∀ m ∈ ([] : List Managed), now.files m = before m)
      · apply Triple.forM (I := fun done now => Intact p before now ∧
          ∀ m ∈ done, now.files m = before m)
        intro done m rest hrows
        have hm : m ∈ scope p.scripts.isSome := by
          rw [hrows]
          exact List.mem_append_right _ List.mem_cons_self
        apply (restoreFile_triple h course hm).mono (fun _ h => h) (fun _ _ h => h)
        exact fun _ now hnow => ⟨hnow.1, .inl hnow.2⟩
      · rintro _ rfl
        exact ⟨hintact, nofun⟩
    · -- everything is as it was before; only the cleanup is left
      rintro now ⟨hnow, hrestored⟩
      have hold : now.files = before := by
        funext m
        by_cases hm : m ∈ scope p.scripts.isSome
        · exact hrestored m hm
        · exact hnow.others m hm
      have hover : ∀ last, Over p.backup now.files last → Settled p before last :=
        fun last hlast => ⟨hlast.1.1, hlast.2, .inl (hlast.1.2.trans hold)⟩
      apply Ends.mono (cleanup_triple course .restored p.backup now now rfl)
      · exact fun _ => hover
      · rintro _ last ⟨hstruck, rfl | hlast | ⟨-, hcut⟩⟩
        · exact ⟨hstruck, .inl hnow⟩
        · exact ⟨hstruck, .inr (.inr (hover last hlast))⟩
        · exact absurd hcut hsafe

/-! ## The update -/

theorem scriptHashes_eq_ok {files : Folder} {actual : Hashes Script}
    (h : scriptHashes files = .ok actual) (s : Script) :
    ∃ file, files (.script s) = some file ∧ file.executable = true ∧
      sha256 file.bytes = actual s := by
  obtain ⟨_, hall, hactual⟩ := bind_eq_ok.mp h
  cases hactual
  obtain ⟨file, hfile, hexecutable⟩ := bind_eq_ok.mp ((forM_eq_ok _).mp hall s (Named.mem_all s))
  rw [owned_eq_ok] at hfile
  rw [require_eq_ok] at hexecutable
  refine ⟨file, hfile, hexecutable, ?_⟩
  change _ = ((files (.script s)).map fun file => sha256 file.bytes).getD ""
  rw [hfile]
  rfl

theorem scripts_eq_ok {host : Host} {files : Folder} {record : Record}
    {both : Hashes Script × Hashes Script} (h : scripts host files record = .ok (some both)) :
    (∀ s, ∃ file, files (.script s) = some file ∧ file.executable = true ∧
      sha256 file.bytes = both.1 s) ∧ ∀ s, hexDigest (both.2 s) = true := by
  unfold scripts at h
  split at h
  next lock hlock =>
    obtain ⟨current, hcurrent, h⟩ := bind_eq_ok.mp h
    split at h
    next rows hrows =>
      obtain ⟨previous, -, h⟩ := bind_eq_ok.mp h
      obtain ⟨actual, hactual, h⟩ := bind_eq_ok.mp h
      obtain ⟨recorded, -, h⟩ := bind_eq_ok.mp h
      obtain ⟨known, -, h⟩ := bind_eq_ok.mp h
      cases known with
      | false => cases h
      | true =>
        cases h
        exact ⟨scriptHashes_eq_ok hactual, hexDigest_of_hashes hcurrent⟩
    · cases h
  · cases h

omit [Sha256] in
theorem readManifest_eq_ok [ManifestText] {files : Folder} {record : Record}
    {installed : Hashes Component} :
    readManifest files = .ok (record, installed) ↔
      ∃ file, files .manifest = some file ∧ file.bytes.length ≤ manifestLimit ∧
        ManifestText.parse file.bytes = some record ∧ record.format = 1 ∧
        hashes record.artifacts.files = .ok installed := by
  unfold readManifest
  constructor
  · intro h
    obtain ⟨file, hfile, h⟩ := bind_eq_ok.mp h
    obtain ⟨_, hlength, h⟩ := bind_eq_ok.mp h
    split at h
    case h_2 => cases h
    case h_1 found hparse =>
    obtain ⟨_, hformat, h⟩ := bind_eq_ok.mp h
    obtain ⟨current, hcurrent, h⟩ := bind_eq_ok.mp h
    cases h
    rw [require_eq_ok, decide_eq_true_eq] at hlength
    rw [require_eq_ok, beq_iff_eq] at hformat
    exact ⟨file, owned_eq_ok.mp hfile, hlength, hparse, hformat, hcurrent⟩
  · rintro ⟨file, hfile, hlength, hparse, hformat, hcurrent⟩
    rw [hfile]
    change (require (Decidable.decide _) _ >>= _) = _
    rw [decide_eq_true hlength, require_true, hparse]
    change (require (record.format == 1) _ >>= _) = _
    rw [hformat]
    change (hashes record.artifacts.files >>= _) = _
    rw [hcurrent]
    rfl

theorem original_of_prepare [ManifestText] {host : Host} {files : Folder} {plan : Plan}
    (h : prepare host files = .ok (some plan)) :
    Original plan.pending files ∧ plan.record.format = 1 := by
  unfold prepare at h
  obtain ⟨_, -, h⟩ := bind_eq_ok.mp h
  obtain ⟨new, hnew, h⟩ := bind_eq_ok.mp h
  split at h
  case h_2 => cases h
  case h_1 rows hrows =>
  obtain ⟨previous, -, h⟩ := bind_eq_ok.mp h
  obtain ⟨_, -, h⟩ := bind_eq_ok.mp h
  obtain ⟨⟨record, old⟩, hread, h⟩ := bind_eq_ok.mp h
  obtain ⟨_, htargets, h⟩ := bind_eq_ok.mp h
  obtain ⟨_, -, h⟩ := bind_eq_ok.mp h
  obtain ⟨both, hscripts, h⟩ := bind_eq_ok.mp h
  obtain ⟨_, -, h⟩ := bind_eq_ok.mp h
  split at h
  · cases h
  obtain ⟨manifest, hmanifest, h⟩ := bind_eq_ok.mp h
  cases h
  rw [verifyTargets_eq_ok] at htargets
  rw [owned_eq_ok] at hmanifest
  obtain ⟨_, -, -, -, hformat, hold⟩ := readManifest_eq_ok.mp hread
  have hboth : ∀ hashes, both = some hashes →
      (∀ s, ∃ file, files (.script s) = some file ∧ file.executable = true ∧
        sha256 file.bytes = hashes.1 s) ∧ ∀ s, hexDigest (hashes.2 s) = true := by
    rintro hashes rfl
    exact scripts_eq_ok hscripts
  refine ⟨⟨⟨Cloud.identifier_uuid .., hexDigest_of_hashes hold, hexDigest_of_hashes hnew, ?_,
    hexDigest_sha256 _⟩, ?_, ?_⟩, hformat⟩
  · intro hashes hsome
    obtain ⟨hactual, hcurrent⟩ := hboth hashes hsome
    refine ⟨fun s => ?_, hcurrent⟩
    obtain ⟨file, -, -, hhash⟩ := hactual s
    rw [← hhash]
    exact hexDigest_sha256 _
  · intro m hm
    cases m with
    | target t =>
      obtain ⟨file, hfile, hhash⟩ := htargets t
      exact ⟨file, hfile, beq_iff_eq.mpr hhash⟩
    | manifest => exact ⟨manifest, hmanifest, beq_self_eq_true _⟩
    | script s =>
      cases both with
      | none => simp [scope] at hm
      | some hashes =>
        obtain ⟨file, hfile, -, hhash⟩ := (hboth hashes rfl).1 s
        exact ⟨file, hfile, beq_iff_eq.mpr hhash⟩
  · intro s file hsome hfile
    cases both with
    | none => cases hsome
    | some hashes =>
      obtain ⟨found, hfound, hexecutable, -⟩ := (hboth hashes rfl).1 s
      rw [hfound] at hfile
      cases hfile
      exact hexecutable

/-- The disk before the journal of an update is written. -/
def Untouched (before : Folder) (disk : Disk) : Prop := Keeps none before disk

/-- What a failed or interrupted preparation leaves: nothing, or the whole journal and a crash. -/
def Staged (p : Pending) (before : Folder) (stop : Stop Error) (disk : Disk) : Prop :=
  Untouched before disk ∨ (Intact p before disk ∧ stop = .crash)

theorem backupFile_triple {p : Pending} {before : Folder} (h : Original p before)
    (course : Course) {done : List Managed} {m : Managed} (hm : m ∈ scope p.scripts.isSome) :
    Triple (fun disk => Untouched before disk ∧ ∃ folder, disk.folders p.backup = some folder ∧
        ∀ m ∈ done, folder m = before m)
      (backupFile course p m)
      (fun _ disk => Untouched before disk ∧ ∃ folder, disk.folders p.backup = some folder ∧
        ∀ m' ∈ done ++ [m], folder m' = before m')
      (Staged p before) := by
  apply Triple.get_bind
  rintro disk ⟨⟨hjournal, rfl⟩, folder, hfolder, hdone⟩
  obtain ⟨file, hfile, his⟩ := h.files m hm
  rw [hfile]
  change Triple _ (liftM (require (file.is (p.expected m)) _) >>= _) _ _
  rw [his, require_true, check_ok_bind]
  apply Triple.perform
  · rintro - _ rfl
    refine ⟨⟨hjournal, rfl⟩, _, Function.update_self .., fun m' hm' => ?_⟩
    by_cases hmm : m' = m
    · subst hmm
      rw [Function.update_self, hfile]
    · rw [Function.update_of_ne hmm, hfolder]
      exact hdone m' ((List.mem_append.mp hm').resolve_right (by simpa using hmm))
  · rintro - _ rfl
    exact ⟨.inl ⟨hjournal, rfl⟩, .inl ⟨hjournal, rfl⟩⟩
  · exact fun _ _ _ now hnow => ⟨.inl hnow.1, .inl hnow.1⟩

theorem stage_triple {p : Pending} {before : Folder} (h : Original p before) {course : Course}
    (hsafe : course.fault .journal ≠ .fails true) :
    Triple (fun disk => Untouched before disk ∧ (disk.folders p.backup).isSome)
      (stage course p) (fun _ => Intact p before) (Staged p before) := by
  refine Triple.bind (Q := fun _ disk => Untouched before disk ∧
    ∃ folder, disk.folders p.backup = some folder ∧
      ∀ m ∈ scope p.scripts.isSome, folder m = before m) ?_ fun _ => ?_
  · apply Triple.pre (P := fun disk => Untouched before disk ∧
      ∃ folder, disk.folders p.backup = some folder ∧
        ∀ m ∈ ([] : List Managed), folder m = before m)
    · apply Triple.forM (I := fun done disk => Untouched before disk ∧
        ∃ folder, disk.folders p.backup = some folder ∧ ∀ m ∈ done, folder m = before m)
      intro done m rest hrows
      apply backupFile_triple h course
      rw [hrows]
      exact List.mem_append_right _ List.mem_cons_self
    · rintro disk ⟨huntouched, hfolder⟩
      obtain ⟨folder, hfolder⟩ := Option.isSome_iff_exists.mp hfolder
      exact ⟨huntouched, folder, hfolder, nofun⟩
  · have hwrite : ∀ E : Stop Error → Disk → Prop, Triple (fun disk => Untouched before disk ∧
        ∃ folder, disk.folders p.backup = some folder ∧
          ∀ m ∈ scope p.scripts.isSome, folder m = before m)
        (modify fun disk => { disk with journal := some (.value p.journal) } : Durable Unit)
        (fun _ => Intact p before) E := by
      intro E
      apply Triple.update
      rintro disk ⟨⟨-, rfl⟩, hbackup⟩
      refine ⟨rfl, hbackup, fun m hm => ?_, fun _ _ => rfl⟩
      obtain ⟨file, hfile, -⟩ := h.files m hm
      exact Option.isSome_iff_exists.mpr ⟨file, hfile⟩
    match hfault : course.fault .journal with
    | .none => exact hwrite _
    | .fails false => exact fun disk hdisk => .inl hdisk.1
    | .fails true => exact absurd hfault hsafe
    | .stops false => exact fun disk hdisk => .inl hdisk.1
    | .stops true => exact (hwrite _).bind fun _ disk hdisk => .inr ⟨hdisk, rfl⟩

omit [Sha256] in
/-- A struck write of a managed file leaves the update undoable. -/
theorem perform_write_triple {p : Pending} {before : Folder} {m : Managed}
    (hm : m ∈ scope p.scripts.isSome) (fault : Fault) (file : File) :
    Triple (Intact p before)
      (perform fault .io (modify fun disk => disk.write m file) : Durable Unit)
      (fun _ disk => Intact p before disk ∧ disk.files m = some file)
      fun _ => Intact p before := by
  apply Triple.perform
  · exact fun _ => Triple.update fun disk h => ⟨h.write hm file, Function.update_self ..⟩
  · exact fun _ disk h => ⟨h, h⟩
  · exact fun _ _ _ disk h => ⟨h.1, h.1⟩

theorem installTarget_triple (host : Host) (p : Pending) (before : Folder) (course : Course)
    (t : Target) :
    Triple (Intact p before) (installTarget course host p t) (fun _ => Intact p before)
      fun _ => Intact p before := by
  refine Triple.bind (Q := fun _ => Intact p before) ?_ fun file => ?_
  · exact Triple.check (fun _ _ h _ => h) fun _ _ h _ => h
  refine Triple.bind (Q := fun _ => Intact p before) ?_ fun _ => ?_
  · exact Triple.check (fun _ _ h _ => h) fun _ _ h _ => h
  · exact (perform_write_triple (target_mem_scope t _) _ file).post fun _ _ h => h.1

omit [Sha256] in
theorem installScript_triple (host : Host) {p : Pending} (before : Folder) (course : Course)
    (hscripts : p.scripts.isSome = true) (s : Script) :
    Triple (Intact p before) (installScript course host s) (fun _ => Intact p before)
      fun _ => Intact p before := by
  have hs : .script s ∈ scope p.scripts.isSome := by
    rw [hscripts]
    exact script_mem_scope s
  unfold installScript
  cases host.asset s with
  | none => exact fun _ h => h
  | some bytes =>
    refine Triple.bind (Q := fun _ => Intact p before) ?_ fun _ => ?_
    · exact (perform_write_triple hs _ _).post fun _ _ h => h.1
    · exact (perform_write_triple hs _ _).post fun _ _ h => h.1

/-- A manifest that is written can be read back. -/
structure Rereads [ManifestText] (record : Record) : Prop where
  parse : ManifestText.parse (ManifestText.toVec record) = some record
  length : (ManifestText.toVec record).length ≤ manifestLimit

instance [ManifestText] (record : Record) : Decidable (Rereads record) :=
  decidable_of_iff (ManifestText.parse (ManifestText.toVec record) = some record ∧
    (ManifestText.toVec record).length ≤ manifestLimit)
    ⟨fun h => ⟨h.1, h.2⟩, fun h => ⟨h.1, h.2⟩⟩

theorem finish_triple [ManifestText] {host : Host} {plan : Plan} {before : Folder}
    (h : Original plan.pending before) (hformat : plan.record.format = 1)
    (hreads : Rereads (plan.newRecord host)) (course : Course) :
    Triple (Intact plan.pending before)
      (do
        perform (course.fault (.install .manifest)) .io (modify fun disk =>
          disk.write .manifest
            { bytes := ManifestText.toVec (plan.newRecord host), executable := false })
        let disk ← get
        verifyTargets disk.files plan.pending.after
        verifyScripts disk.files (plan.pending.scripts.map Prod.snd)
        cleanup course .installed plan.pending.backup : Durable Unit)
      (fun _ => Settled plan.pending before)
      fun _ disk => Intact plan.pending before disk ∨ Complete plan.pending disk ∨
        Settled plan.pending before disk := by
  refine Triple.bind ((perform_write_triple (manifest_mem_scope _) _ _).mono (fun _ h => h)
    (fun _ _ h => h) fun _ _ h => .inl h) fun _ => ?_
  apply Triple.get_bind
  rintro disk ⟨hintact, hmanifest⟩
  refine Triple.bind (Q := fun _ now => now = disk ∧
    verifyTargets disk.files plan.pending.after = .ok ()) ?_ fun _ => ?_
  · apply Triple.check
    · rintro ⟨⟩ _ rfl hok
      exact ⟨rfl, hok⟩
    · rintro _ _ rfl -
      exact .inl hintact
  refine Triple.bind (Q := fun _ now => now = disk ∧ Updated plan.pending disk.files) ?_ fun _ => ?_
  · apply Triple.check
    · rintro ⟨⟩ _ ⟨rfl, htargets⟩ hscripts
      refine ⟨rfl, verifyTargets_eq_ok.mp htargets, fun hashes hp => ?_, ?_⟩
      · exact verifyScripts_eq_ok.mp hscripts hashes.2 (by rw [hp]; rfl)
      · refine ⟨plan.newRecord host, readManifest_eq_ok.mpr ⟨_, hmanifest, hreads.length,
          hreads.parse, hformat, hashes_rows h.wellFormed.after⟩, fun hashes hp => ?_⟩
        refine ⟨Hashes.rows hashes.2, ?_, sameRows_rows _⟩
        simp only [Plan.newRecord, hp]
    · rintro _ _ ⟨rfl, -⟩ -
      exact .inl hintact
  · rintro now ⟨rfl, hupdated⟩
    apply Ends.mono (cleanup_updated hintact.journal hupdated course now rfl)
    · exact fun _ _ h => h
    · exact fun _ _ h => .inr h.2

theorem exchange_triple [ManifestText] {host : Host} {plan : Plan} {before : Folder}
    (h : Original plan.pending before) (hformat : plan.record.format = 1)
    (hreads : Rereads (plan.newRecord host)) (course : Course) :
    Triple (Intact plan.pending before) (exchange course host plan)
      (fun _ => Settled plan.pending before)
      fun _ disk => Intact plan.pending before disk ∨ Complete plan.pending disk ∨
        Settled plan.pending before disk := by
  refine Triple.bind (Q := fun _ => Intact plan.pending before) ?_ fun _ => ?_
  · apply Triple.forM (I := fun _ => Intact plan.pending before)
    exact fun _ t _ _ => (installTarget_triple host plan.pending before course t).mono
      (fun _ h => h) (fun _ _ h => h) fun _ _ h => .inl h
  apply Triple.ite
  · intro hscripts
    refine Triple.bind (Q := fun _ => Intact plan.pending before) ?_ fun _ =>
      finish_triple h hformat hreads course
    apply Triple.forM (I := fun _ => Intact plan.pending before)
    exact fun _ s _ _ => (installScript_triple host before course hscripts s).mono
      (fun _ h => h) (fun _ _ h => h) fun _ _ h => .inl h
  · exact fun _ => finish_triple h hformat hreads course

/-! ## Runs -/

/-- The journal of the update is still there, or the update is over. -/
def Reached [ManifestText] (p : Pending) (before : Folder) (disk : Disk) : Prop :=
  Intact p before disk ∨ Complete p disk ∨ Settled p before disk

/-- What an update leaves: nothing it changed, or what its plan reached. -/
def Left [ManifestText] (host : Host) (before : Folder) (disk : Disk) : Prop :=
  Untouched before disk ∨
    ∃ plan, prepare host before = .ok (some plan) ∧ Reached plan.pending before disk

/-- The journal write does not fail once the journal is in place, and the recovery that follows a
failed exchange does not break off in its cleanup. -/
def Courses.Safe (courses : Courses) : Prop :=
  courses.main.fault .journal ≠ .fails true ∧ ¬ courses.undo.CutsOff .restored

theorem recover_none [ManifestText] {course : Course} {disk : Disk} (h : disk.journal = none) :
    recover course disk = .ok () disk := by
  unfold recover
  rw [get_bind, h]
  rfl

theorem recover_reached [ManifestText] {p : Pending} {before : Folder} (h : Original p before)
    {course : Course} (hsafe : ¬ course.CutsOff .restored) :
    Triple (Reached p before) (recover course) (fun _ => Settled p before)
      fun _ disk => course.Struck ∧ Reached p before disk := by
  rintro disk (hintact | hcomplete | hsettled)
  · exact recover_triple h hsafe disk (.inl hintact)
  · exact recover_triple h hsafe disk (.inr hcomplete)
  · rw [recover_none hsettled.journal]
    exact hsettled

theorem recover_left [ManifestText] {host : Host} {before : Folder} {course : Course}
    (hsafe : ¬ course.CutsOff .restored) :
    Triple (Left host before) (recover course) (fun _ => Left host before)
      fun _ => Left host before := by
  rintro disk (huntouched | ⟨plan, hplan, hdisk⟩)
  · rw [recover_none huntouched.1]
    exact .inl huntouched
  · apply Ends.mono (recover_reached (original_of_prepare hplan).1 hsafe disk hdisk)
    · exact fun _ now h => .inr ⟨plan, hplan, .inr (.inr h)⟩
    · exact fun _ now h => .inr ⟨plan, hplan, h.2⟩

theorem update_triple [ManifestText] {host : Host} {before : Folder} {courses : Courses}
    {plan : Plan} (hplan : prepare host before = .ok (some plan)) (hsafe : courses.Safe)
    (hreads : Rereads (plan.newRecord host)) :
    Triple (fun disk => Untouched before disk ∧ (disk.folders plan.pending.backup).isSome)
      (update courses host plan) (fun _ => Left host before) fun _ => Left host before := by
  obtain ⟨horiginal, hformat⟩ := original_of_prepare hplan
  have hleft : ∀ disk, Reached plan.pending before disk → Left host before disk :=
    fun disk h => .inr ⟨plan, hplan, h⟩
  refine Triple.bind (Q := OnOutcome (fun _ => Intact plan.pending before)
    fun _ => Untouched before) ?_ fun staged => ?_
  · apply Triple.outcome
    apply (stage_triple horiginal hsafe.1).mono (fun _ h => h) (fun _ _ h => h)
    rintro (e | _) disk (h | ⟨h, hcrash⟩)
    · exact h
    · cases hcrash
    · exact .inl h
    · exact hleft disk (.inl h)
  cases staged with
  | error e =>
    refine Triple.bind (Q := fun _ => Untouched before) ?_ fun _ => ?_
    · apply Triple.outcome
      apply (removeAll_triple courses.main .abandoned plan.pending.backup none before).mono
      · exact fun _ h => h
      · exact fun _ _ h => h.1
      · rintro (_ | _) disk h
        · exact h.1
        · exact .inl h.1
    · exact Triple.throw fun _ h => .inl h
  | ok u =>
    refine Triple.bind (Q := OnOutcome (fun _ => Settled plan.pending before)
      fun _ => Reached plan.pending before) ?_ fun exchanged => ?_
    · apply Triple.outcome
      apply (exchange_triple horiginal hformat hreads courses.main).mono
      · exact fun _ h => h
      · exact fun _ _ h => h
      · rintro (_ | _) disk h
        · exact h
        · exact hleft disk h
    cases exchanged with
    | ok u => exact fun disk h => hleft disk (.inr (.inr h))
    | error e =>
      refine Triple.bind (Q := fun _ => Left host before) ?_ fun _ => ?_
      · exact (recover_left hsafe.2).pre hleft
      · exact Triple.throw fun _ h => h

theorem refreshWith_triple [ManifestText] {host : Host} {before : Folder} {courses : Courses}
    (hsafe : courses.Safe)
    (hreads : ∀ plan, prepare host before = .ok (some plan) → Rereads (plan.newRecord host)) :
    Triple (Untouched before) (refreshWith courses host) (fun _ => Left host before)
      fun _ => Left host before := by
  refine Triple.bind (Q := fun _ => Untouched before) ?_ fun _ => ?_
  · intro disk h
    rw [recover_none h.1]
    exact h
  apply Triple.get_bind
  rintro disk ⟨hjournal, rfl⟩
  have huntouched : ∀ now, now = disk → Left host disk.files now := by
    rintro _ rfl
    exact .inl ⟨hjournal, rfl⟩
  refine Triple.bind (Q := fun found now => prepare host disk.files = .ok found ∧ now = disk)
    ?_ fun found => ?_
  · exact Triple.check (fun _ now h hok => ⟨hok, h⟩) fun _ now h _ => huntouched now h
  cases found with
  | none => exact fun now h => huntouched now h.2
  | some plan =>
    rintro now ⟨hplan, hnow⟩
    revert now
    refine Triple.bind (Q := fun _ => (· = disk)) ?_ fun _ => ?_
    · exact Triple.check (fun _ now h _ => h) fun _ now h _ => huntouched now h
    refine Triple.bind (Q := fun _ now => Untouched disk.files now ∧
      (now.folders plan.pending.backup).isSome) ?_ fun _ => update_triple hplan hsafe (hreads plan hplan)
    apply Triple.perform
    · rintro - _ rfl
      refine ⟨⟨hjournal, rfl⟩, ?_⟩
      exact Option.isSome_iff_exists.mpr ⟨_, Function.update_self ..⟩
    · exact fun _ now h => ⟨huntouched now h, huntouched now h⟩
    · exact fun _ _ _ now h => ⟨.inl h.1, .inl h.1⟩

omit [Sha256] in
theorem Course.Struck.of_cutsOff {course : Course} {phase : Phase} (h : course.CutsOff phase) :
    course.Struck := by
  rcases h with ⟨m, h⟩ | h | h
  · exact ⟨_, h⟩
  · exact ⟨_, h⟩
  · exact ⟨_, Fault.ne_none_of_passes h⟩

/-- Recoveries, one after the other, each to where it stops. -/
def recoverAll [ManifestText] (courses : List Course) (disk : Disk) : Disk :=
  courses.foldl (fun disk course => stateOf (recover course disk)) disk

theorem recoverAll_none [ManifestText] {courses : List Course} {disk : Disk}
    (h : disk.journal = none) : recoverAll courses disk = disk := by
  induction courses with
  | nil => rfl
  | cons course courses ih =>
    change recoverAll courses (stateOf (recover course disk)) = disk
    rw [recover_none h]
    exact ih

theorem recoverAll_reached [ManifestText] {p : Pending} {before : Folder}
    (h : Original p before) {courses : List Course} {disk : Disk}
    (hsafe : ∀ course ∈ courses, ¬ course.CutsOff .restored) (hdisk : Reached p before disk) :
    Reached p before (recoverAll courses disk) := by
  induction courses generalizing disk with
  | nil => exact hdisk
  | cons course courses ih =>
    rw [List.forall_mem_cons] at hsafe
    have hnext : Reached p before (stateOf (recover course disk)) := by
      apply Ends.stateOf
      apply (recover_reached h hsafe.1 disk hdisk).mono
      · exact fun _ _ hnow => .inr (.inr hnow)
      · exact fun _ _ hnow => hnow.2
    exact ih hsafe.2 hnext

theorem Reached.backup_eq [ManifestText] {p : Pending} {before : Folder} {disk : Disk}
    {journal : Journal} (h : Reached p before disk) (hjournal : disk.journal = some (.value journal)) :
    journal.backup = p.backup := by
  have hsome : disk.journal = some (.value p.journal) := by
    rcases h with h | h | h
    · exact h.journal
    · exact h.journal
    · rw [h.journal] at hjournal
      cases hjournal
  rw [hsome] at hjournal
  cases hjournal
  rfl

/-- However an update and the recoveries after it stop, a recovery that is let finish succeeds.  It
leaves no journal and no backup, and every managed file in its old version or everything in the new
one. -/
theorem update_converges [ManifestText] {host : Host} {disk : Disk} {courses : Courses}
    {later : List Course} {calm : Course} (hjournal : disk.journal = none)
    (hsafe : courses.Safe) (hlater : ∀ course ∈ later, ¬ course.CutsOff .restored)
    (hreads : ∀ plan, prepare host disk.files = .ok (some plan) → Rereads (plan.newRecord host))
    (hcalm : ¬ calm.Struck) :
    let left := stateOf (refreshWith courses host disk)
    let last := recoverAll later left
    ∃ final, recover calm last = .ok () final ∧ final.journal = none ∧
      (∀ journal, left.journal = some (.value journal) → final.folders journal.backup = none) ∧
      (final.files = disk.files ∨
        ∃ plan, prepare host disk.files = .ok (some plan) ∧ Updated plan.pending final.files) ∧
      recover calm final = .ok () final := by
  intro left last
  have hleft : Left host disk.files left :=
    (refreshWith_triple hsafe hreads disk ⟨hjournal, rfl⟩).stateOf
  rcases hleft with huntouched | ⟨plan, hplan, hreached⟩
  · have hlast : last = left := recoverAll_none huntouched.1
    rw [hlast, recover_none huntouched.1]
    refine ⟨left, rfl, huntouched.1, fun journal h => ?_, .inl huntouched.2,
      recover_none huntouched.1⟩
    rw [huntouched.1] at h
    cases h
  · have horiginal := (original_of_prepare hplan).1
    have hlast : Reached plan.pending disk.files last :=
      recoverAll_reached horiginal hlater hreached
    have hrecover := recover_reached horiginal (mt Course.Struck.of_cutsOff hcalm) last hlast
    cases hrun : recover calm last with
    | error stop final =>
      rw [hrun] at hrecover
      exact absurd hrecover.1 hcalm
    | ok u final =>
      rw [hrun] at hrecover
      refine ⟨final, rfl, hrecover.journal, fun journal h => ?_, ?_, recover_none hrecover.journal⟩
      · rw [hreached.backup_eq h]
        exact hrecover.backup
      · exact hrecover.files.imp_right fun hupdated => ⟨plan, hplan, hupdated⟩

end

/-! ## Runs on fixed files -/

section

local instance : Sha256 := standardSha256

def Record.pretty (record : Record) : Pretty :=
  prettyObject [("format", prettyNumber record.format),
    ("artifacts", prettyObject [("format", prettyNumber record.artifacts.format),
      ("files", prettyObject (record.artifacts.files.map fun (name, hash) =>
        (name, prettyString hash))),
      ("features", fun _ => record.artifacts.features),
      ("cli_features", fun _ => record.artifacts.cliFeatures),
      ("native_archive_sha256", prettyString record.artifacts.nativeArchiveSha256)])]

def oldFile : File := { bytes := utf8 "old", executable := true }

def newFile : File := { bytes := utf8 "new", executable := true }

def sampleRecord (file : File) : Record where
  format := 1
  artifacts := {
    files := Hashes.rows fun _ : Component => sha256 file.bytes
    features := "[]"
    cliFeatures := "[]"
    nativeArchiveSha256 := "" }
  runtimeFiles := none
  rest := ""

def sampleBytes (file : File) : Bytes := documentBytes (sampleRecord file).pretty

/-- The two manifests of the run are read as `serde_json` reads them. -/
local instance : ManifestText where
  parse bytes :=
    if bytes = sampleBytes oldFile then some (sampleRecord oldFile)
    else if bytes = sampleBytes newFile then some (sampleRecord newFile)
    else none
  toVec record := documentBytes record.pretty

def sampleHost : Host where
  lock := {
    files := Hashes.rows fun _ : Component => sha256 newFile.bytes
    upgradeFrom := some [Hashes.rows fun _ : Component => sha256 oldFile.bytes]
    features := "[]"
    cliFeatures := "[]"
    archiveSha256 := ""
    runtimeScripts := none }
  native _ := some newFile
  asset _ := none
  overlay := .ok fun _ => []
  protonSwitch := false
  ensureHelper := .ok ()
  uuid := 0

def sampleDisk : Disk where
  files
    | .target _ => some oldFile
    | .script _ => none
    | .manifest => some { bytes := sampleBytes oldFile, executable := false }

def everyFile : List Managed := scope true

theorem mem_everyFile (m : Managed) : m ∈ everyFile := by
  cases m with
  | target t => exact target_mem_scope t true
  | script s => exact script_mem_scope s
  | manifest => exact manifest_mem_scope true

def courseOf (fault : Site → Fault) : Course := ⟨fault, everyFile, mem_everyFile⟩

def calmCourse : Course := courseOf fun _ => .none

/-- The machine stops when the second component is installed. -/
def stoppedCourses : Courses where
  before := calmCourse
  main := courseOf fun site =>
    if site = .install (.target .service) then .stops false else .none
  undo := calmCourse

/-- The copy of the second component fails, and the machine stops when the backup that was put back
is half removed. -/
def halfRemoved : Courses where
  before := calmCourse
  main := courseOf fun site =>
    if site = .install (.target .service) then .fails false else .none
  undo := courseOf fun site =>
    if site = .removeFile .restored (.target .service) then .stops false else .none

theorem update_converges_stopped :
    let left := stateOf (refreshWith stoppedCourses sampleHost sampleDisk)
    let last := recoverAll [] left
    ∃ final, recover calmCourse last = .ok () final ∧ final.journal = none ∧
      (∀ journal, left.journal = some (.value journal) → final.folders journal.backup = none) ∧
      (final.files = sampleDisk.files ∨ ∃ plan,
        prepare sampleHost sampleDisk.files = .ok (some plan) ∧ Updated plan.pending final.files) ∧
      recover calmCourse final = .ok () final := by
  have hcalm : ¬ calmCourse.Struck := by
    rintro ⟨_, h⟩
    exact h rfl
  have hall : ((prepare sampleHost sampleDisk.files).toOption.join.all fun plan =>
      Decidable.decide (Rereads (plan.newRecord sampleHost))) = true := by
    decide +kernel
  apply update_converges rfl
  · exact ⟨by decide, mt Course.Struck.of_cutsOff hcalm⟩
  · intro courses hcourses
    cases hcourses
  · intro plan hplan
    rw [hplan] at hall
    exact of_decide_eq_true hall
  · exact hcalm

/-- A crash while the backup of a rolled back update is removed leaves a journal that no recovery
gets past. -/
theorem recovery_stuck :
    ¬ ∃ final, recover calmCourse (stateOf (refreshWith halfRemoved sampleHost sampleDisk)) =
      .ok () final := by
  have h : succeeded (recover calmCourse
      (stateOf (refreshWith halfRemoved sampleHost sampleDisk))) = false := by
    decide +kernel
  rintro ⟨final, hfinal⟩
  rw [hfinal] at h
  cases h

end

end Flightdeck.Components
