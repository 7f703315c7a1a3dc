import Flightdeck.Cloud.Agreement
import Flightdeck.Cloud.JournalRun
import Flightdeck.SaveState.Budgets

/-!
# Equal content

What a session reports when the cloud and the local state have the same content.  Only the
comparisons of a session speak of a conflict, so everything else is shown to fail with other codes.
-/

namespace Flightdeck.Cloud.Flow

open Foundation SaveState Session

/-! ## Failures -/

/-- A failure that is no conflict. -/
def Other (e : Failure) : Prop := e.code ≠ .conflict

/-- A computation that may fail, but with no conflict. -/
def Fine {α : Type} (x : Except Failure α) : Prop := Outcome x (fun _ => True) Other

theorem other_new {code : Code} (other : code ≠ .conflict) : Other (.new code) := other

theorem other_ofError {e : Error} (told : Told e) : Other (Failure.ofError e) := by
  obtain ⟨_, rfl⟩ := told
  exact other_new (by decide)

section

variable {α β : Type}

theorem Fine.bind {x : Except Failure α} {f : α → Except Failure β} (fine : Fine x)
    (rest : ∀ a, Fine (f a)) : Fine (x >>= f) :=
  Outcome.bind fine fun a _ => rest a

theorem Fine.error {x : Except Failure α} {e : Failure} (fine : Fine x) (failed : x = .error e) :
    Other e := by
  rw [failed] at fine
  exact fine

theorem fine_pure (a : α) : Fine (pure a : Except Failure α) := trivial

theorem fine_throw {code : Code} (other : code ≠ .conflict) :
    Fine (throw (.new code) : Except Failure α) := other

theorem fine_require {condition : Bool} {code : Code} (other : code ≠ .conflict) :
    Fine (Cloud.require condition code) := by
  cases condition with
  | true => trivial
  | false => exact other

theorem fine_mapError {ε : Type} {x : Except ε α} {f : ε → Failure} (other : ∀ e, Other (f e)) :
    Fine (x.mapError f) := by
  cases x with
  | ok a => trivial
  | error e => exact other e

theorem fine_told {x : Except Error α} {Q : α → Prop} (told : Outcome x Q Told) :
    Fine (x.mapError Failure.ofError) := by
  cases x with
  | ok a => trivial
  | error e => exact other_ofError told

theorem fine_foldlM {ρ : Type} {step : β → ρ → Except Failure β}
    (fine : ∀ b row, Fine (step b row)) (rows : List ρ) (b : β) : Fine (rows.foldlM step b) :=
  Outcome.foldlM (I := fun _ => True) (fun b row _ => fine b row) rows trivial

end

/-! ## What is read of the disk -/

theorem fine_offline (disk : Disk) : Fine (offline disk) := by
  unfold offline
  split
  · exact fine_pure _
  · exact (fine_require (by decide)).bind fun _ => (fine_require (by decide)).bind fun _ =>
      fine_pure _

theorem require_told (condition : Bool) {e : Error} (told : Told e) :
    Outcome (Flightdeck.require condition e) (fun _ => True) Told := by
  cases condition with
  | true => trivial
  | false => exact told

theorem saveSet_told (binding : String) (containers : TextMap String) :
    Outcome (SaveSet.new binding containers) (fun _ => True) Told := by
  have checked : Outcome (SaveSet.check binding containers) (fun _ => True) Told := by
    refine (require_told _ ⟨_, rfl⟩).bind fun _ _ => ?_
    induction containers.toList with
    | nil => trivial
    | cons row rows ih =>
      exact ((name_outcome _ _).bind fun _ _ => require_told _ ⟨_, rfl⟩).bind fun _ _ => ih
  unfold SaveSet.new
  split
  · trivial
  · rename_i failed
    rw [failed] at checked
    exact checked

theorem decide_told (binding : String) («local» remote baseline : Option SaveSet) :
    Outcome (Cloud.decide binding «local» remote baseline) (fun _ => True) Told := by
  refine (require_told _ ⟨_, rfl⟩).bind fun _ _ => ?_
  split
  · trivial
  split <;> try trivial
  split <;> try trivial
  -- only a decision over a baseline builds a new set, which may fail
  dsimp only
  split
  · trivial
  split
  · split
    · trivial
    · split
      · trivial
      · exact (saveSet_told _ _).bind fun _ _ => .pure trivial
  · trivial

section

variable [Sha256]

theorem fine_namespace (scope : Scope) : Fine scope.namespace := by
  unfold Scope.namespace
  split
  · exact fine_mapError fun _ => other_new (by decide)
  · exact fine_throw (by decide)

theorem fine_decode (raw : Bytes) : Fine (Import.decode raw) :=
  fine_mapError fun _ => other_new (by decide)

theorem fine_encode (state : State) : Fine (Import.encode state) :=
  fine_mapError fun _ => other_new (by decide)

theorem fine_digest (state : State) : Fine (Import.digest state) :=
  fine_mapError fun _ => other_new (by decide)

theorem fine_decodeOption (raw : Option Bytes) : Fine (Import.decodeOption raw) := by
  cases raw with
  | some raw => exact fine_decode raw
  | none => exact fine_pure _

theorem fine_state (disk : Disk) : Fine disk.state :=
  (fine_require (by decide)).bind fun _ => (fine_require (by decide)).bind fun _ =>
    (fine_decodeOption _).bind fun _ => fine_pure _

theorem fine_snapshot (folders : TextMap Storage.Folder) (binding : String)
    (snap : Storage.Snapshot) : Fine (Import.snapshot folders binding snap) := by
  apply fine_mapError
  intro e same
  unfold Import.snapshotFailure at same
  split at same
  · -- a code that is kept is one of two, and neither is a conflict
    rename_i kept
    rcases kept with kept | kept <;> cases kept.symm.trans same
  · cases same

theorem fine_containers (state : State) : Fine (Import.containers state) :=
  fine_foldlM (fun _ _ => (fine_digest _).bind fun _ => fine_pure _) _ _

theorem fine_loadBaseline (scope : Scope) (disk : Disk) : Fine (loadBaseline scope disk) :=
  fine_mapError fun _ => other_new (by decide)

theorem fine_prepare (scope : Scope) (snap : Storage.Snapshot) (baseline : Option Import.Baseline)
    (disk : Disk) : Fine (prepare scope snap baseline disk) := by
  refine (fine_namespace scope).bind fun _ => (fine_require (by decide)).bind fun _ =>
    (fine_snapshot _ _ _).bind fun _ => (fine_state disk).bind fun found => ?_
  obtain ⟨raw, state⟩ := found
  exact (fine_containers _).bind fun _ => (fine_containers _).bind fun _ =>
    (fine_digest _).bind fun _ => fine_pure _

theorem fine_backupData (backups : TextMap Import.Backup) (binding «namespace» id : String) :
    Fine (Import.backupData backups binding «namespace» id) := by
  refine (fine_require (by decide)).bind fun _ => ?_
  split
  · exact (fine_require (by decide)).bind fun _ => (fine_require (by decide)).bind fun _ =>
      (fine_require (by decide)).bind fun _ => (fine_require (by decide)).bind fun _ =>
      (fine_decodeOption _).bind fun _ => (fine_require (by decide)).bind fun _ =>
      (fine_decode _).bind fun _ => fine_pure _
  · exact fine_throw (by decide)

theorem fine_decodeState (raw : Bytes) : Fine (decodeState raw) := fine_told (decode_outcome raw)

theorem fine_initialState (original : Option Bytes) : Fine (initialState original) := by
  cases original with
  | some original => exact fine_decodeState original
  | none => exact fine_pure _

theorem fine_validated (disk : Disk) (binding «namespace» : String) (r : Record) :
    Fine (validated disk binding «namespace» r) := by
  have confirmed : Fine (validConfirmed disk binding «namespace» r) := by
    unfold validConfirmed
    split
    · exact (fine_backupData _ _ _ _).bind fun _ => (fine_decodeState _).bind fun _ =>
        (fine_digest _).bind fun _ => fine_require (by decide)
    · exact fine_require (by decide)
  exact (fine_require (by decide)).bind fun _ => (fine_require (by decide)).bind fun _ =>
    (fine_require (by decide)).bind fun _ => (fine_require (by decide)).bind fun _ =>
    (fine_snapshot _ _ _).bind fun _ => (fine_digest _).bind fun _ =>
    (fine_require (by decide)).bind fun _ => (fine_backupData _ _ _ _).bind fun _ =>
    (fine_initialState _).bind fun _ => (fine_digest _).bind fun _ =>
    (fine_require (by decide)).bind fun _ => (fine_backupData _ _ _ _).bind fun _ =>
    (fine_decodeState _).bind fun _ => (fine_digest _).bind fun _ =>
    (fine_require (by decide)).bind fun _ => confirmed.bind fun _ => fine_pure _

theorem fine_load (scope : Scope) (disk : Disk) : Fine (Session.load scope disk) := by
  refine (fine_namespace scope).bind fun _ => ?_
  split
  · exact fine_pure _
  · rw [map_eq_pure_bind]
    exact (fine_validated _ _ _ _).bind fun _ => fine_pure _

theorem fine_current (scope : Scope) (r : Record) (disk : Disk) :
    Fine (Session.current scope r disk) :=
  (fine_load scope disk).bind fun _ => (fine_require (by decide)).bind fun _ =>
    fine_require (by decide)

theorem fine_exportFrom (scope : Scope) (disk : Disk) : Fine (exportFrom scope disk) := by
  refine (fine_namespace scope).bind fun _ => (fine_state disk).bind fun found =>
    (fine_digest _).bind fun _ => ?_
  obtain ⟨raw, state⟩ := found
  cases raw with
  | some raw => exact fine_pure _
  | none => exact (fine_encode _).bind fun _ => fine_pure _

theorem fine_exported (e : LocalExport) : Fine (LocalExport.state e) := fine_decode _

theorem fine_unchanged (e : LocalExport) (disk : Disk) : Fine (e.unchanged disk) := by
  refine (fine_state disk).bind fun found => ?_
  obtain ⟨raw, state⟩ := found
  exact fine_require (by decide)

theorem fine_backup (binding «namespace» : String) (raw : Option Bytes) (replacement : Bytes)
    (snapshotDigest : Option String) :
    Fine (Import.Backup.of binding «namespace» raw replacement snapshotDigest) :=
  (fine_decodeOption _).bind fun _ => fine_pure _

theorem fromState_told (binding : String) (state : State) :
    Outcome (SaveSet.fromState binding state) (fun _ => True) Told := by
  have digested (s : State) : Outcome (contentDigest s) (fun _ => True) Told :=
    (encode_outcome _).bind fun _ _ => .pure trivial
  refine (encode_outcome state).bind fun _ _ => Outcome.bind (Q := fun _ => True) ?_
    fun _ _ => saveSet_told _ _
  exact Outcome.foldlM (I := fun _ => True)
    (fun _ _ _ => (digested _).bind fun _ _ => .pure trivial) _ trivial

theorem fine_assertTarget (scope : Scope) (e : LocalExport) (decision : Decision) :
    Fine (assertTarget scope e decision) :=
  (fine_exported e).bind fun _ => (fine_told (fromState_told _ _)).bind fun _ =>
    fine_require (by decide)

end

/-! ## Programs -/

/-- A program that keeps `P` and fails with no conflict. -/
def Keeps {σ α : Type} (P : σ → Prop) (m : EStateM Failure σ α) : Prop :=
  Triple P m (fun _ => P) fun e _ => Other e

section

variable {σ α β : Type} {P : σ → Prop} {m : EStateM Failure σ α} {f : α → EStateM Failure σ β}

theorem Keeps.bind (first : Keeps P m) (rest : ∀ a, Keeps P (f a)) : Keeps P (m >>= f) :=
  Triple.bind first rest

theorem keeps_pure (a : α) : Keeps P (pure a : EStateM Failure σ α) := fun _ holds => holds

theorem keeps_throw {e : Failure} (other : Other e) :
    Keeps P (throw e : EStateM Failure σ α) := fun _ _ => other

theorem keeps_throw_bind {e : Failure} (other : Other e) :
    Keeps P ((throw e : EStateM Failure σ α) >>= f) := fun _ _ => other

theorem keeps_lift {x : Except Failure α} (fine : Fine x) :
    Keeps P (liftM x : EStateM Failure σ α) := by
  apply Triple.lift
  · exact fun _ _ holds _ => holds
  · intro e _ _ failed
    rw [failed] at fine
    exact fine

theorem keeps_attempt (both : Triple P m (fun _ => P) fun _ => P) :
    Keeps P (attempt m : EStateM Failure σ (Except Failure α)) :=
  Triple.attempt both

theorem keeps_get {f : σ → EStateM Failure σ β} (rest : ∀ s, Keeps P (f s)) :
    Keeps P (get >>= f) := fun s holds => rest s s holds

theorem keeps_foldlM {ρ : Type} {step : β → ρ → EStateM Failure σ β}
    (kept : ∀ b row, Keeps P (step b row)) (rows : List ρ) (b : β) :
    Keeps P (rows.foldlM step b) :=
  Triple.foldlM (I := fun _ _ => P) (fun _ row _ b _ => kept b row) b

theorem keeps_modify {g : σ → σ} (kept : ∀ s, P s → P (g s)) :
    Keeps P (modify g : EStateM Failure σ Unit) := fun s holds => kept s holds

end

/-- An assertion about the server and the moves. -/
structure Distant (P : World → Prop) : Prop where
  steady : Steady P
  disk : ∀ w disk, P w → P { w with disk }

section

variable {α : Type} {P : World → Prop} {service : Service}

theorem fine_reading (steady : Steady P) {f : Disk → Except Failure α}
    (fine : ∀ disk, Fine (f disk)) :
    Triple P (reading f) (fun a w => P w ∧ f w.disk = .ok a) fun e _ => Other e := by
  apply (reading_triple steady).mono (fun _ holds => holds) fun _ _ holds => holds
  rintro e w ⟨_, lost | failed⟩
  · rw [lost]
    exact other_new (by decide)
  · exact (fine w.disk).error failed

theorem keeps_reading (steady : Steady P) {f : Disk → Except Failure α}
    (fine : ∀ disk, Fine (f disk)) : Keeps P (reading f) :=
  (fine_reading steady fine).post fun _ _ holds => holds.1

theorem keeps_cancelCheck (steady : Steady P) : Keeps P cancelCheck := by
  apply (cancelCheck_triple steady).mono (fun _ holds => holds) fun _ _ holds => holds
  intro e _ holds
  rw [holds.2]
  exact other_new (by decide)

theorem keeps_writing (distant : Distant P) {f : String → Disk → Except Failure (α × Disk)}
    (fine : ∀ uuid disk, Fine (f uuid disk)) : Keeps P (writing service f) := by
  apply writing_triple distant.steady fun _ => distant.steady
  · exact fun w _ _ disk holds _ => distant.disk w disk holds
  · exact fun _ _ => other_new (by decide)
  · exact fun _ _ _ => other_new (by decide)
  · intro w n e _ failed
    have here := fine (simpleUuid n) w.disk
    rw [failed] at here
    exact here

end

/-! ## The private folder -/

section

variable [Sha256] {P : World → Prop} {service : Service} {scope : Scope}

theorem exportLocal_keeps (steady : Steady P) : Keeps P (exportLocal scope) :=
  (keeps_cancelCheck steady).bind fun _ => keeps_reading steady (fine_exportFrom scope)

theorem assertUnchanged_keeps (steady : Steady P) (e : LocalExport) :
    Keeps P (assertUnchanged e) := keeps_reading steady (fine_unchanged e)

theorem backup_keeps (distant : Distant P) («namespace» : String) (raw : Option Bytes)
    (replacement : Bytes) (snapshotDigest : Option String) :
    Keeps P (backup service scope «namespace» raw replacement snapshotDigest) := by
  refine (keeps_lift (fine_backup _ _ _ _ _)).bind fun _ =>
    keeps_writing distant fun uuid disk => ?_
  dsimp only
  split
  · exact other_new (by decide)
  · exact fine_pure _

theorem publishCommon_keeps (distant : Distant P) («namespace» id : String) (encoded : Bytes)
    (kind : String) : Keeps P (publishCommon service scope «namespace» id encoded kind) := by
  refine (keeps_lift (fine_decode _)).bind fun _ => (keeps_lift (fine_digest _)).bind fun _ =>
    (keeps_writing distant fun uuid disk => ?_).bind fun _ =>
    keeps_writing distant fun _ _ => fine_pure _
  split
  · exact other_new (by decide)
  · exact fine_pure _

theorem recordCommon_keeps (distant : Distant P) (e : LocalExport) (receipt : Write.Receipt) :
    Keeps P (recordCommon service scope e receipt) := by
  refine (assertUnchanged_keeps distant.steady e).bind fun _ =>
    (keeps_lift (fine_require (by decide))).bind fun _ =>
    (keeps_reading distant.steady fine_state).bind fun found => ?_
  obtain ⟨raw, state⟩ := found
  exact (backup_keeps distant _ _ _ _).bind fun _ =>
    (assertUnchanged_keeps distant.steady e).bind fun _ =>
    (publishCommon_keeps distant _ _ _ _).bind fun _ =>
    keeps_lift ((fine_containers _).bind fun _ => fine_pure _)

theorem access_keeps (steady : Steady P) (e : Option LocalExport) : Keeps P (access scope e) := by
  refine (keeps_lift (fine_namespace scope)).bind fun _ => ?_
  cases e with
  | none => exact keeps_pure _
  | some e =>
    exact (assertUnchanged_keeps steady e).bind fun _ => keeps_lift (fine_require (by decide))

theorem capture_keeps (distant : Distant P) (e : LocalExport) : Keeps P (capture service scope e) :=
  (assertUnchanged_keeps distant.steady e).bind fun _ =>
    (backup_keeps distant _ _ _ _).bind fun _ =>
    (assertUnchanged_keeps distant.steady e).bind fun _ => keeps_pure _

omit [Sha256] in
theorem store_keeps (distant : Distant P) (r : Record) (new : Bool) :
    Keeps P (store service r new) := by
  refine (keeps_lift (fine_require (by decide))).bind fun _ =>
    keeps_writing distant fun uuid disk => ?_
  split
  · exact other_new (by decide)
  · exact fine_pure _

theorem begin_keeps (distant : Distant P) (snap : Storage.Snapshot) (e : LocalExport)
    (phase : Phase) : Keeps P (begin service scope snap e phase) := by
  refine (keeps_lift (fine_require (by decide))).bind fun _ =>
    (access_keeps distant.steady _).bind fun _ =>
    (keeps_reading distant.steady (fine_load scope)).bind fun _ =>
    (keeps_lift (fine_require (by decide))).bind fun _ =>
    (keeps_reading distant.steady fun _ => fine_snapshot _ _ _).bind fun _ =>
    (capture_keeps distant e).bind fun captured => ?_
  obtain ⟨id, hash⟩ := captured
  exact (keeps_lift (fine_digest _)).bind fun _ =>
    (keeps_writing distant fun _ _ => fine_pure _).bind fun _ =>
    (keeps_lift (fine_namespace scope)).bind fun _ => (store_keeps distant _ _).bind fun _ =>
    keeps_pure _

theorem target_keeps (distant : Distant P) (r : Record) (e : Option LocalExport) :
    Keeps P (target service scope r e) := by
  cases e with
  | none => exact keeps_pure _
  | some e =>
    refine (capture_keeps distant e).bind fun captured => ?_
    obtain ⟨id, hash⟩ := captured
    exact keeps_pure _

theorem update_keeps (distant : Distant P) (r : Record) (phase : Phase) (e : Option LocalExport) :
    Keeps P (update service scope r phase e) :=
  (keeps_lift (fine_require (by decide))).bind fun _ =>
    (access_keeps distant.steady e).bind fun _ =>
    (keeps_reading distant.steady (fine_current scope r)).bind fun _ =>
    (target_keeps distant r e).bind fun _ => (store_keeps distant _ _).bind fun _ => keeps_pure _

theorem confirmed_keeps (steady : Steady P) (r : Record) (e : LocalExport)
    (receipt : Write.Receipt) : Keeps P (confirmed r e receipt) :=
  (assertUnchanged_keeps steady e).bind fun _ =>
    (keeps_lift (fine_require (by decide))).bind fun _ => keeps_lift (fine_require (by decide))

theorem checkpoint_keeps (distant : Distant P) (r : Record) (e : LocalExport)
    (receipt : Write.Receipt) : Keeps P (checkpoint service scope r e receipt) :=
  (access_keeps distant.steady _).bind fun _ =>
    (keeps_reading distant.steady (fine_current scope r)).bind fun _ =>
    (confirmed_keeps distant.steady r e receipt).bind fun _ =>
    (store_keeps distant _ _).bind fun _ => keeps_pure _

theorem complete_keeps (distant : Distant P) (r : Record) (e : LocalExport)
    (receipt : Write.Receipt) : Keeps P (complete service scope r e receipt) :=
  (access_keeps distant.steady _).bind fun _ =>
    (keeps_reading distant.steady (fine_current scope r)).bind fun _ =>
    (confirmed_keeps distant.steady r e receipt).bind fun _ =>
    keeps_writing distant fun _ _ => fine_pure _

end

/-! ## Uploads -/

/-- `P` of the other side. -/
def InRun (P : World → Prop) (run : Write.Run World) : Prop := P run.world

/-- What surrounds an upload keeps `P`, and what it reads of the cloud satisfies `R`. -/
structure Polite (P : World → Prop) (R : State → Prop) (c : Write.Context World) : Prop where
  load : Triple P c.env.load (fun _ => P) fun _ _ => False
  instant : Triple P c.env.instant (fun _ => P) fun _ _ => False
  asserted : Triple P c.env.assertLocal (fun _ => P) fun _ => P
  acquire : ∀ timeout, Keeps P (c.ops.acquire timeout)
  renew : ∀ timeout, Keeps P (c.ops.renew timeout)
  remote : ∀ timeout force, Triple P (c.ops.remote timeout force) (fun state w => P w ∧ R state)
    fun e _ => Other e

section

variable {α : Type} {P : World → Prop} {R : State → Prop} {c : Write.Context World}

theorem call_triple {m : EStateM Failure World α} {Q : α → World → Prop}
    {E : Failure → World → Prop} (called : Triple P m Q E) :
    Triple (InRun P) (Write.call m) (fun a => InRun (Q a)) fun e => InRun (E e) :=
  Triple.zoom fun run holds => called run.world holds

theorem call_keeps {m : EStateM Failure World α} (kept : Keeps P m) :
    Keeps (InRun P) (Write.call m) := call_triple kept

theorem remaining_keeps (polite : Polite P R c) : Keeps P (remaining c.env c.deadline) := by
  have load : Keeps P c.env.load :=
    polite.load.mono (fun _ holds => holds) (fun _ _ holds => holds) fun _ _ no => no.elim
  have instant : Keeps P c.env.instant :=
    polite.instant.mono (fun _ holds => holds) (fun _ _ holds => holds) fun _ _ no => no.elim
  exact (load.bind fun _ => keeps_lift (fine_require (by decide))).bind fun _ =>
    instant.bind fun _ => (keeps_lift (fine_require (by decide))).bind fun _ => keeps_pure _

theorem check_keeps (polite : Polite P R c) : Keeps (InRun P) (Write.check c) := by
  refine (call_keeps (remaining_keeps polite)).bind fun _ =>
    (keeps_attempt (call_triple polite.asserted)).bind fun result => ?_
  cases result with
  | ok _ => exact keeps_pure _
  -- whatever the assertion failed with, the upload says `local_changed`
  | error _ => exact keeps_throw (other_new (by decide))

theorem modify_keeps {g : Write.Run World → Write.Run World}
    (same : ∀ run, (g run).world = run.world) :
    Keeps (InRun P) (modify g : EStateM Failure (Write.Run World) Unit) := by
  apply keeps_modify
  intro run holds
  show P (g run).world
  rw [same]
  exact holds

theorem budget_keeps (polite : Polite P R c) : Keeps (InRun P) (Write.budget c) := by
  refine (check_keeps polite).bind fun left => ?_
  dsimp only
  exact Keeps.bind (modify_keeps fun _ => rfl) fun _ =>
    keeps_get fun _ => (keeps_lift (fine_require (by decide))).bind fun _ => keeps_pure _

theorem setAcquired_keeps (acquired : Bool) :
    Keeps (InRun P) (Write.setAcquired acquired : EStateM Failure (Write.Run World) Unit) :=
  modify_keeps fun _ => rfl

theorem other_status {code : Code} (other : code ≠ .conflict) (status : UInt16) :
    Other ((Failure.new code).status status) := other

theorem lease_keeps (polite : Polite P R c) (reply : Write.LeaseReply) (first : Bool) :
    Keeps (InRun P) (Write.lease c reply first) := by
  have checked : Keeps (InRun P) (do
      let _ ← Write.check c
      return reply.quotaBytes) := (check_keeps polite).bind fun _ => keeps_pure _
  unfold Write.lease
  dsimp only
  split
  · exact (setAcquired_keeps _).bind fun _ => keeps_throw_bind (other_status (by decide) _)
  · split
    · exact (setAcquired_keeps _).bind fun _ => keeps_throw_bind (other_status (by decide) _)
    · split
      · exact keeps_throw_bind (other_status (by decide) _)
      · refine (keeps_lift (fine_require (by decide))).bind fun _ => ?_
        split
        · exact Keeps.bind (modify_keeps fun _ => rfl) fun _ => checked
        · split
          · exact (setAcquired_keeps _).bind fun _ => keeps_throw_bind (other_new (by decide))
          · refine keeps_get fun _ => ?_
            split
            · exact (setAcquired_keeps _).bind fun _ => keeps_throw_bind (other_new (by decide))
            · exact (setAcquired_keeps _).bind fun _ => checked

theorem renew_keeps (polite : Polite P R c) : Keeps (InRun P) (Write.renew c) :=
  (budget_keeps polite).bind fun _ => (setAcquired_keeps _).bind fun _ =>
    (call_keeps (polite.renew _)).bind fun _ => (lease_keeps polite _ _).bind fun _ => keeps_pure _

theorem uploadBlob_keeps (polite : Polite (fun _ => True) R c)
    (uploads : ∀ payload timeout, Keeps (fun _ => True) (c.ops.uploadAtom payload timeout))
    (done : TextMap String × TextSet) (blob : String × Bytes) :
    Keeps (InRun fun _ => True) (Write.uploadBlob c done blob) :=
  (budget_keeps polite).bind fun _ => (call_keeps (uploads _ _)).bind fun _ =>
    (keeps_lift (fine_require (by decide))).bind fun _ => (check_keeps polite).bind fun _ =>
    keeps_pure _

variable [Sha256]

theorem remote_triple (polite : Polite P R c) (force : TextSet) :
    Triple (InRun P) (Write.remote c force) (fun state run => InRun P run ∧ R state)
      fun e _ => Other e := by
  refine Triple.bind (Q := fun _ => InRun P) (check_keeps polite) fun _ =>
    Triple.bind (call_triple (polite.remote _ force)) fun state => ?_
  rintro run ⟨holds, read⟩
  refine Triple.bind (P := InRun P) (Q := fun _ => InRun P)
    (keeps_lift (fine_mapError fun _ => other_new (by decide))) (fun _ => ?_) run holds
  refine Triple.bind (Q := fun _ => InRun P) (check_keeps polite) fun _ => ?_
  exact fun _ holds => ⟨holds, read⟩

theorem remote_keeps (polite : Polite P R c) (force : TextSet) :
    Keeps (InRun P) (Write.remote c force) :=
  (remote_triple polite force).post fun _ _ holds => holds.1

theorem fine_entryDigest (name : String) (entry : Option Container) :
    Fine (Write.entryDigest name entry) := by
  cases entry with
  | none => exact fine_pure _
  | some entry =>
    unfold Write.entryDigest
    dsimp only
    rw [map_eq_pure_bind]
    exact (fine_digest _).bind fun _ => fine_pure _

theorem confirm_keeps (polite : Polite P R c) (name : String) (expected : Option Container) :
    Keeps (InRun P) (Write.confirm c name expected) :=
  (renew_keeps polite).bind fun _ => (remote_keeps polite _).bind fun _ =>
    (keeps_lift (fine_entryDigest _ _)).bind fun _ =>
    (keeps_lift (fine_entryDigest _ _)).bind fun _ =>
    (keeps_lift (fine_require (by decide))).bind fun _ =>
    (renew_keeps polite).bind fun _ => modify_keeps fun _ => rfl

/-! Once the content that an upload must find was read, nothing speaks of a conflict. -/

theorem commit_keeps (polite : Polite (fun _ => True) R c) (name : String)
    (entry : Option Container) (atoms : TextMap String) :
    Keeps (InRun fun _ => True) (Write.commit c name entry atoms) := by
  -- The answer to the mutation is inspected below, so the call itself may fail with anything.
  have free {m : EStateM Failure (Write.Run World) UInt16} : Triple (InRun fun _ => True) m
      (fun _ => InRun fun _ => True) fun _ => InRun fun _ => True := by
    intro run _
    cases m run <;> exact trivial
  refine (renew_keeps polite).bind fun _ => (check_keeps polite).bind fun _ =>
    Keeps.bind (modify_keeps fun _ => rfl) fun _ => (budget_keeps polite).bind fun _ =>
    (keeps_attempt free).bind fun reply => ?_
  have confirmed := confirm_keeps polite name entry
  cases reply with
  -- a lost answer may follow a successful commit: it is read back
  | error _ => exact confirmed
  | ok status =>
    dsimp only
    split
    · exact (setAcquired_keeps _).bind fun _ => keeps_throw_bind (other_status (by decide) _)
    · split
      · exact (setAcquired_keeps _).bind fun _ => keeps_throw_bind (other_status (by decide) _)
      · exact confirmed

theorem fine_sameEntry (name : String) (target old : Option Container) :
    Fine (Write.sameEntry name target old) := by
  unfold Write.sameEntry
  split
  · exact (fine_entryDigest _ _).bind fun _ => (fine_entryDigest _ _).bind fun _ => fine_pure _
  · exact fine_pure _

theorem uploadName_keeps (polite : Polite (fun _ => True) R c)
    (uploads : ∀ payload timeout, Keeps (fun _ => True) (c.ops.uploadAtom payload timeout))
    («local» remote : State) (name : String) :
    Keeps (InRun fun _ => True) (Write.uploadName c «local» remote name) := by
  refine (keeps_lift (fine_sameEntry _ _ _)).bind fun same => ?_
  cases same with
  | true => exact keeps_pure _
  | false =>
    dsimp only
    cases «local».containers[name]? with
    | none => exact (keeps_pure _).bind fun _ => commit_keeps polite _ _ _
    | some target =>
      exact (renew_keeps polite).bind fun _ =>
        (keeps_foldlM (uploadBlob_keeps polite uploads) _ _).bind fun _ =>
        (keeps_pure _).bind fun _ => commit_keeps polite _ _ _

/-- An upload that finds the expected content ends with no conflict. -/
theorem body_triple {d : String} (held : Polite P (fun s => Import.digest s = .ok d) c)
    (polite : Polite (fun _ => True) R c)
    (uploads : ∀ payload timeout, Keeps (fun _ => True) (c.ops.uploadAtom payload timeout))
    («local» : State) (source : String) (total : Nat) :
    Triple (InRun P) (Write.body c «local» d source total) (fun _ _ => True)
      fun e _ => Other e := by
  have free {α : Type} {m : EStateM Failure (Write.Run World) α}
      (kept : Keeps (InRun fun _ => True) m) :
      Triple (fun _ => True) m (fun _ _ => True) fun e _ => Other e := kept
  refine Triple.bind (budget_keeps held) fun _ => Triple.bind (call_keeps (held.acquire _)) fun _ =>
    Triple.bind (lease_keeps held _ _) fun _ =>
    Triple.bind (keeps_lift (fine_require (by decide))) fun _ =>
    Triple.bind (remote_triple held _) fun first => ?_
  rintro run ⟨-, found⟩
  refine Triple.lift_bind found
    (Triple.bind (P := fun _ => True) (Q := fun _ _ => True) ?_ fun _ => ?_) run
    trivial
  · -- the only comparison that reports a conflict, with the digest that was read
    rw [beq_self_eq_true]
    exact fun _ _ => trivial
  · -- from here on the upload itself changes the cloud, and nothing is known of its content
    refine free ((renew_keeps polite).bind fun _ => Keeps.bind ?_ fun _ =>
      (renew_keeps polite).bind fun _ => keeps_get fun _ => (remote_keeps polite _).bind fun _ =>
      (keeps_lift (fine_digest _)).bind fun _ =>
      (keeps_lift (fine_require (by decide))).bind fun _ =>
      renew_keeps polite)
    exact Triple.forM (I := fun _ => InRun fun _ => True)
      fun _ name _ _ => uploadName_keeps polite uploads _ _ name

theorem runBody_triple {d : String} (held : Polite P (fun s => Import.digest s = .ok d) c)
    (polite : Polite (fun _ => True) R c)
    (uploads : ∀ payload timeout, Keeps (fun _ => True) (c.ops.uploadAtom payload timeout))
    («local» : State) (source : String) (total : Nat) :
    Triple P (Write.runBody c «local» d source total)
      (fun ended _ => ∀ e, ended.1 = .error e → Other e) fun e _ => Other e := by
  intro w holds
  have body := body_triple held polite uploads «local» source total { world := w } holds
  unfold Write.runBody
  cases ran : Write.body c «local» d source total { world := w } with
  | ok u run =>
    intro e same
    cases same
  | error error run =>
    rw [ran] at body
    intro e same
    cases same
    exact body

theorem finish_keeps (scope : Scope) («local» : State) (expected source : String)
    {result : Except Failure Unit} (other : ∀ e, result = .error e → Other e)
    (run : Write.Run World) :
    Keeps (fun _ => True) (Write.finish c scope «local» expected source result run) := by
  have released (acquired : Bool) : Keeps (fun _ : World => True) (Write.release c acquired) := by
    cases acquired with
    | false => exact keeps_pure _
    | true =>
      -- a release that fails leaves the result of the upload as it was
      refine (keeps_attempt fun w _ => ?_).bind fun answer => ?_
      · cases c.ops.release c.limits.cleanup w <;> exact trivial
      · cases answer with
        | ok status => exact keeps_pure _
        | error e => exact keeps_pure _
  refine (released _).bind fun _ => keeps_lift ?_
  cases result with
  | ok u => exact fine_pure _
  | error e => exact other e rfl

theorem upload_triple {ops : Write.Operations World} {env : Ambient World} {limits : Write.Limits}
    {d : String}
    (held : ∀ deadline, Polite P (fun s => Import.digest s = .ok d) ⟨ops, env, limits, deadline⟩)
    (polite : ∀ deadline, Polite (fun _ => True) R ⟨ops, env, limits, deadline⟩)
    (uploads : ∀ payload timeout, Keeps (fun _ => True) (ops.uploadAtom payload timeout))
    (scope : Scope) («local» : State) :
    Triple P (Write.upload scope ops «local» d env limits) (fun _ _ => True)
      fun e _ => Other e := by
  refine Triple.bind (Q := fun _ => P) (keeps_lift (fine_require (by decide))) fun _ =>
    Triple.bind (Q := fun _ => P) (keeps_lift (fine_require (by decide))) fun _ =>
    Triple.bind (Q := fun _ => P)
      (keeps_lift (fine_mapError fun _ => other_new (by decide))) fun _ =>
    Triple.bind (Q := fun _ => P) (keeps_lift (fine_digest _)) fun source => ?_
  dsimp only
  refine Triple.bind (Q := fun _ => P) (keeps_lift (fine_require (by decide))) fun _ =>
    Triple.bind (Q := fun _ => P) ((held 0).instant.mono (fun _ holds => holds)
      (fun _ _ holds => holds) fun _ _ no => no.elim) fun now => ?_
  refine Triple.bind (runBody_triple (held _) (polite _) uploads «local» source _) fun ended => ?_
  obtain ⟨result, run⟩ := ended
  exact fun w other => finish_keeps scope «local» d source other run w trivial

end

/-! ## The server -/

theorem World.next_edit {w : World} (alone : ∀ move ∈ w.moves, move.edit = none) :
    w.next.1.edit = none := by
  by_cases inside : w.next.1 ∈ w.moves
  · exact alone _ inside
  · rw [World.next_mem inside]

theorem arrive_cloud {move : Move} (alone : move.edit = none) (s : Server) :
    (s.arrive move).cloud = s.cloud := by
  have others (s : Server) : (s.others move).cloud = s.cloud := by
    unfold Server.others
    rw [alone]
    cases s.lease <;> rfl
  unfold Server.arrive
  rw [others]
  unfold Server.expiring
  split <;> rfl

theorem anything_distant : Distant fun _ => True where
  steady := Steady.const True
  disk := fun _ _ _ => trivial

section

variable {α : Type} {act : Move → Option Record → Server → Except Failure α × Server}
  (other : ∀ move journal s s' e, act move journal s = (.error e, s') → Other e)

include other

theorem server_keeps : Keeps (fun _ => True) (serverEffect act) := by
  apply effect_triple
  · exact fun _ _ => other_new (by decide)
  · exact fun _ _ _ => other_new (by decide)
  · exact fun _ _ _ _ _ => ⟨trivial, fun _ => other_new (by decide)⟩
  · intro w _ e w' failed
    refine ⟨?_, fun _ => other_new (by decide)⟩
    have parts := Prod.mk.inj failed
    exact other _ _ _ _ _ (Prod.ext parts.1 rfl)

variable {R : State → Prop} {D : Disk → Prop}

/-- The other devices leave the cloud alone, whose content is as `R` says. -/
structure Quiet (R : State → Prop) (D : Disk → Prop) (w : World) : Prop where
  still : ∀ move ∈ w.moves, move.edit = none
  cloud : R w.server.cloud
  disk : D w.disk

omit other in
theorem Quiet.steady : Steady (Quiet R D) := by
  intro w w' disk server moves holds
  refine ⟨fun move there => holds.still move (moves there), ?_, ?_⟩
  · rw [server]
    exact holds.cloud
  · rw [disk]
    exact holds.disk

omit other in
theorem Quiet.fixed {m : EStateM Failure World α} {Q : α → World → Prop}
    {E : Failure → World → Prop}
    (each : ∀ disk, D disk → Triple (Quiet R (· = disk)) m Q E) : Triple (Quiet R D) m Q E :=
  fun w holds => each w.disk holds.disk w ⟨holds.still, holds.cloud, rfl⟩

omit other in
/-- A read of a known disk. -/
theorem Quiet.reading {β : Type} {disk : Disk} {f : Disk → Except Failure α}
    {rest : α → EStateM Failure World β} {Q : β → World → Prop} (fine : ∀ disk, Fine (f disk))
    (next : ∀ a, f disk = .ok a → Triple (Quiet R (· = disk)) (rest a) Q fun e _ => Other e) :
    Triple (Quiet R (· = disk)) (Cloud.reading f >>= rest) Q fun e _ => Other e := by
  refine (fine_reading Quiet.steady fine).bind fun a w holds => ?_
  obtain ⟨holds, read⟩ := holds
  rw [holds.disk] at read
  exact next a read w holds

/-- A call that leaves the content of the cloud alone. -/
theorem server_triple {Q : α → Prop}
    (kept : ∀ move journal s r s', act move journal s = (r, s') → s'.cloud = s.cloud)
    (told : ∀ move journal s a s', R s.cloud → act move journal s = (.ok a, s') → Q a) :
    Triple (Quiet R D) (serverEffect act) (fun a w => Quiet R D w ∧ Q a) fun e _ => Other e := by
  apply effect_triple
  · exact fun _ _ => other_new (by decide)
  · exact fun _ _ _ => other_new (by decide)
  · intro w holds a w' called
    obtain ⟨answered, rfl⟩ := Prod.mk.inj called
    -- the call finds the cloud as it was: no device edits it when the call arrives
    have same := arrive_cloud (World.next_edit holds.still) w.server
    have here : R (w.next.2.server.arrive w.next.1).cloud := by
      rw [World.next_server, same]
      exact holds.cloud
    refine ⟨⟨⟨fun move there => holds.still move (World.next_moves w there), ?_, ?_⟩, ?_⟩, ?_⟩
    · show R (act _ _ _).2.cloud
      rw [kept _ _ _ _ _ rfl]
      exact here
    · exact (Quiet.steady.next holds).disk
    · exact told _ _ _ _ _ here (Prod.ext answered rfl)
    · exact fun _ => other_new (by decide)
  · intro w _ e w' failed
    refine ⟨?_, fun _ => other_new (by decide)⟩
    have parts := Prod.mk.inj failed
    exact other _ _ _ _ _ (Prod.ext parts.1 rfl)

end

section

variable [Sha256] {d : String} {service : Service} {scope : Scope} {e : LocalExport}
  {limits : Write.Limits} {deadline : Nat}

/-- The cloud has content with the digest `d`, and keeps it. -/
def Held (d : String) (w : World) : Prop :=
  Quiet (fun cloud => Import.digest cloud = .ok d) (fun _ => True) w

theorem held_distant : Distant (Held d) where
  steady := Quiet.steady
  disk := fun _ _ holds => ⟨holds.still, holds.cloud, trivial⟩

omit [Sha256] in
theorem ambient_triple {P : World → Prop} (steady : Steady P)
    (assertLocal : EStateM Failure World Unit)
    {E : Failure → World → Prop} :
    Triple P (ambient assertLocal).load (fun _ => P) E ∧
      Triple P (ambient assertLocal).instant (fun _ => P) E := by
  refine ⟨load_ambient steady, fun w holds => ?_⟩
  show P { w.next.2 with clock := _ }
  exact steady (w := w.next.2) rfl rfl (fun _ there => there) (steady.next holds)

theorem asserted_triple {P : World → Prop} (steady : Steady P) :
    Triple P (assertUnchanged e) (fun _ => P) fun _ => P :=
  (reading_triple steady).mono (fun _ holds => holds) (fun _ _ holds => holds.1)
    fun _ _ holds => holds.1

omit [Sha256] in
/-- A lease call answers, and leaves the content of the cloud alone. -/
theorem renewed_cloud {move : Move} {s s' : Server} {r : Except Failure Write.LeaseReply}
    (answered : renewed service move s = (r, s')) : s'.cloud = s.cloud ∧ r.isOk = true := by
  unfold renewed at answered
  cases lease : s.lease with
  | none =>
    rw [lease] at answered
    cases answered
    exact ⟨rfl, rfl⟩
  | some n =>
    rw [lease] at answered
    cases answered
    exact ⟨rfl, rfl⟩

omit [Sha256] in
theorem acquired_cloud {move : Move} {journal : Option Record} {s s' : Server}
    {r : Except Failure Write.LeaseReply}
    (answered : (if move.refuse then (.ok (refused move), s) else granted service move journal s) =
      (r, s')) : s'.cloud = s.cloud ∧ r.isOk = true := by
  split at answered <;> cases answered <;> exact ⟨rfl, rfl⟩

omit [Sha256] in
theorem renewal_cloud {move : Move} {journal : Option Record} {s s' : Server}
    {r : Except Failure Write.LeaseReply}
    (answered : (if move.refuse then (.ok (refused move), s)
      else if move.regrant then granted service move journal s
      else renewed service move s) = (r, s')) : s'.cloud = s.cloud ∧ r.isOk = true := by
  split at answered
  · cases answered
    exact ⟨rfl, rfl⟩
  · split at answered
    · cases answered
      exact ⟨rfl, rfl⟩
    · exact renewed_cloud answered

omit [Sha256] in
theorem no_failure {α : Type} {r : Except Failure α} {failure : Failure} (good : r.isOk = true)
    (failed : r = .error failure) : Other failure := by
  rw [failed] at good
  cases good

theorem polite_held : Polite (Held d) (fun s => Import.digest s = .ok d)
    ⟨operations service scope, ambient (assertUnchanged e), limits, deadline⟩ where
  load := (ambient_triple held_distant.steady _).1
  instant := (ambient_triple held_distant.steady _).2
  asserted := asserted_triple held_distant.steady
  acquire _ := by
    unfold Keeps operations
    dsimp only
    refine (server_triple (Q := fun _ => True) ?_ ?_ ?_).post fun _ _ holds => holds.1
    · exact fun _ _ _ _ _ failed => no_failure (acquired_cloud failed).2 rfl
    · exact fun _ _ _ _ _ answered => (acquired_cloud answered).1
    · exact fun _ _ _ _ _ _ _ => trivial
  renew _ := by
    unfold Keeps operations
    dsimp only
    refine (server_triple (Q := fun _ => True) ?_ ?_ ?_).post fun _ _ holds => holds.1
    · exact fun _ _ _ _ _ failed => no_failure (renewal_cloud failed).2 rfl
    · exact fun _ _ _ _ _ answered => (renewal_cloud answered).1
    · exact fun _ _ _ _ _ _ _ => trivial
  remote _ _ := by
    unfold operations
    dsimp only
    apply server_triple
    · intro _ _ _ _ _ failed
      split at failed <;> cases failed
      exact other_new (by decide)
    · intro _ _ _ _ _ answered
      split at answered <;> cases answered <;> rfl
    · intro _ _ _ _ _ here answered
      split at answered <;> cases answered
      exact here

theorem polite_anything : Polite (fun _ => True) (fun _ => True)
    ⟨operations service scope, ambient (assertUnchanged e), limits, deadline⟩ where
  load := (ambient_triple anything_distant.steady _).1
  instant := (ambient_triple anything_distant.steady _).2
  asserted := asserted_triple anything_distant.steady
  acquire _ := by
    unfold operations
    dsimp only
    apply server_keeps
    exact fun _ _ _ _ _ failed => no_failure (acquired_cloud failed).2 rfl
  renew _ := by
    unfold operations
    dsimp only
    apply server_keeps
    exact fun _ _ _ _ _ failed => no_failure (renewal_cloud failed).2 rfl
  remote _ _ := by
    unfold operations
    dsimp only
    refine Triple.post (server_keeps ?_) fun _ _ _ => ⟨trivial, trivial⟩
    intro _ _ _ _ _ failed
    split at failed <;> cases failed
    exact other_new (by decide)

omit [Sha256] in
theorem uploadAtom_keeps (payload : Bytes) (timeout : Nat) :
    Keeps (fun _ => True) ((operations service scope).uploadAtom payload timeout) := by
  unfold operations
  dsimp only
  apply server_keeps
  intro _ _ _ _ _ failed
  split at failed <;> cases failed
  exact other_new (by decide)

/-! ## Sessions -/

section

variable {α β : Type} {P : World → Prop} {Q : α → World → Prop}

omit [Sha256] in
/-- What a session does in the monad of the cloud modules. -/
theorem lift_attention {m : EStateM Failure World α} (triple : Triple P m Q fun e _ => Other e) :
    Triple P (liftM m : EStateM Attention World α) Q fun a _ => Other a.error := by
  intro w holds
  have ended := triple w holds
  dsimp only [liftM, monadLift, MonadLiftT.monadLift, MonadLift.monadLift]
  cases ran : m w with
  | ok a s =>
    rw [ran] at ended
    exact ended
  | error error s =>
    rw [ran] at ended
    exact ended

end

/-- The rest of a session, when the cloud has the expected content, ends with no conflict. -/
theorem finish_triple (record : Record) (playing : Bool) :
    Triple (Held d) (finish service scope record d playing) (fun _ _ => True)
      fun a _ => Other a.error := by
  have uploaded (e : LocalExport) (s : State) :
      Triple (Held d) (upload service scope e s d) (fun _ _ => True) fun e _ => Other e :=
    upload_triple (fun _ => polite_held) (fun _ => polite_anything) uploadAtom_keeps scope s
  have after {α : Type} {m : EStateM Failure World α} (kept : Keeps (fun _ => True) m) :
      Triple (fun _ => True) (liftM m : EStateM Attention World α) (fun _ _ => True)
        fun a _ => Other a.error := lift_attention kept
  refine Triple.bind (lift_attention (exportLocal_keeps held_distant.steady)) fun e =>
    Triple.bind (lift_attention (update_keeps held_distant _ _ _)) fun next =>
    Triple.bind (lift_attention (keeps_lift (fine_exported e))) fun s =>
    Triple.bind (lift_attention (uploaded e s)) fun receipt =>
    Triple.bind (after (recordCommon_keeps anything_distant _ _)) fun _ =>
    Triple.bind (after (keeps_lift (fine_require (by decide)))) fun _ => ?_
  cases playing with
  | true => exact Triple.bind (after (checkpoint_keeps anything_distant _ _ _)) fun _ _ _ => trivial
  | false => exact after (complete_keeps anything_distant _ _ _)

/-- The files that a session starts from, and the content of the cloud. -/
def Starts (cloud : State) (file : Option Bytes) (journal : Option Record) : World → Prop :=
  Quiet (· = cloud) fun disk => disk.stateBin = file ∧ disk.journal = journal

/-- A snapshot of the cloud is on the disk. -/
def Downloaded (scope : Scope) (cloud : State) (file : Option Bytes) (journal : Option Record)
    (snap : Storage.Snapshot) : World → Prop :=
  Quiet (· = cloud) fun disk => (disk.stateBin = file ∧ disk.journal = journal) ∧
    ∃ v, Import.snapshot disk.snapshots scope.binding snap = .ok v ∧
      v.state.containers = cloud.containers

variable {cloud «local» : State} {file : Option Bytes} {journal : Option Record}

theorem download_starts : Triple (Starts cloud file journal) (download service scope)
    (Downloaded scope cloud file journal) fun e _ => Other e := by
  have current : Triple (Starts cloud file journal) current
      (fun content w => Starts cloud file journal w ∧ content = cloud) fun e _ => Other e := by
    apply server_triple
    · intro _ _ _ _ _ failed
      split at failed <;> cases failed
      exact other_new (by decide)
    · intro _ _ _ _ _ answered
      split at answered <;> cases answered <;> rfl
    · intro _ _ _ _ _ here answered
      split at answered <;> cases answered
      exact here
  refine current.bind fun content => ?_
  dsimp only
  apply writing_triple
  · exact Quiet.steady.and (Steady.const _)
  · exact fun _ => Quiet.steady
  · rintro w n snap disk ⟨holds, rfl⟩ written
    split at written
    · cases written
    · split at written
      · cases written
      · rename_i v found
        split at written
        · rename_i same
          obtain ⟨rfl, rfl⟩ := Prod.mk.inj (Except.ok.inj written)
          exact ⟨holds.still, holds.cloud, holds.disk, v, found, same⟩
        · cases written
  · exact fun _ _ => other_new (by decide)
  · exact fun _ _ _ => other_new (by decide)
  · intro w n e _ failed
    split at failed
    · cases failed
      exact other_new (by decide)
    · split at failed
      · rename_i cause
        cases failed
        exact (fine_snapshot _ _ _).error cause
      · split at failed <;> cases failed
        exact other_new (by decide)

/-- What a session has read when the local state and the cloud have the content of digest `d`. -/
structure Reads (scope : Scope) (cloud «local» : State) (d : String) (journal : Option Record)
    (i : Inputs) : Prop where
  record : i.record = journal
  plan : i.plan.remoteDigest = d
  baseline : ∀ b, i.baseline = some b → b.binding = scope.binding
  remote : i.remote.containers = cloud.containers
  «local» : i.local = «local»
  digest : i.localDigest = d

theorem digest_congr {s t : State} (same : s.containers = t.containers) :
    Import.digest s = Import.digest t := by
  have canonical : canonical s = canonical t := by
    unfold SaveState.canonical
    rw [same]
  unfold Import.digest contentDigest
  rw [canonical]

/-- The local file and the cloud have content of digest `d`. -/
structure Equal (cloud «local» : State) (file : Option Bytes) (d : String) : Prop where
  decoded : Import.decodeOption file = .ok «local»
  digest : Import.digest «local» = .ok d
  cloud : Import.digest cloud = .ok d

theorem prepare_digest {disk : Disk} {snap : Storage.Snapshot} {b : Option Import.Baseline}
    {plan : Import.Plan} {v : Import.Validated}
    (found : Import.snapshot disk.snapshots scope.binding snap = .ok v)
    (planned : prepare scope snap b disk = .ok plan) :
    Import.digest v.state = .ok plan.remoteDigest ∧ b.all (·.binding == scope.binding) = true := by
  obtain ⟨_, -, planned⟩ := bind_eq_ok.mp planned
  obtain ⟨_, bound, planned⟩ := bind_eq_ok.mp planned
  obtain ⟨v', found', planned⟩ := bind_eq_ok.mp planned
  obtain ⟨⟨raw, state⟩, -, planned⟩ := bind_eq_ok.mp planned
  obtain ⟨_, -, planned⟩ := bind_eq_ok.mp planned
  obtain ⟨_, -, planned⟩ := bind_eq_ok.mp planned
  obtain ⟨digest, digested, planned⟩ := bind_eq_ok.mp planned
  obtain rfl : v' = v := Except.ok.inj (found'.symm.trans found)
  rw [← pure_eq_ok.mp planned]
  exact ⟨digested, Cloud.require_eq_ok.mp bound⟩

/-- An export of a known disk. -/
theorem exportLocal_quiet {R : State → Prop} {disk : Disk} :
    Triple (Quiet R (· = disk)) (exportLocal scope)
      (fun e w => Quiet R (· = disk) w ∧ exportFrom scope disk = .ok e) fun e _ => Other e := by
  refine Triple.bind (keeps_cancelCheck Quiet.steady) fun _ =>
    (fine_reading Quiet.steady (fine_exportFrom scope)).post ?_
  rintro e w ⟨holds, read⟩
  rw [holds.disk] at read
  exact ⟨holds, read⟩

theorem Equal.exported {disk : Disk} {e : LocalExport}
    (equal : Equal cloud «local» disk.stateBin d) (exported : exportFrom scope disk = .ok e) :
    LocalExport.state e = .ok «local» ∧ e.contentDigest = d := by
  obtain ⟨-, -, state, -, of⟩ := exportFrom_eq_ok exported
  obtain rfl : state = «local» := Except.ok.inj (of.decoded.symm.trans equal.decoded)
  exact ⟨of.decode_encoded, Except.ok.inj (of.contentDigest.symm.trans equal.digest)⟩

theorem inputs_reads (equal : Equal cloud «local» file d) :
    Triple (Starts cloud file journal) (inputs service scope)
      (fun i w => Held d w ∧ Reads scope cloud «local» d journal i) fun e _ => Other e := by
  refine download_starts.bind fun snap => Quiet.fixed fun disk there => ?_
  obtain ⟨⟨rfl, rfl⟩, v, found, same⟩ := there
  refine Quiet.reading (fun disk => fine_snapshot _ _ _) fun remote read => ?_
  obtain rfl : v = remote := Except.ok.inj (found.symm.trans read)
  refine Quiet.reading (fine_loadBaseline scope) fun baseline _ =>
    Quiet.reading (fine_prepare scope snap baseline) fun plan planned =>
    Quiet.reading (fine_load scope) fun record loaded =>
    exportLocal_quiet.bind fun e w holds => ?_
  obtain ⟨holds, exported⟩ := holds
  obtain ⟨decoded, -⟩ := equal.exported exported
  obtain ⟨remoteDigest, bound⟩ := prepare_digest found planned
  have planDigest : plan.remoteDigest = d :=
    Except.ok.inj ((remoteDigest.symm.trans (digest_congr same)).trans equal.cloud)
  have journal : record = disk.journal := by
    cases record with
    | none => exact (load_eq_none loaded).symm
    | some r => exact (load_eq_some.mp loaded).1.symm
  have held : Held d w := ⟨holds.still, by rw [holds.cloud]; exact equal.cloud, trivial⟩
  rw [decoded]
  simp only [lift_ok_bind, equal.digest]
  refine ⟨held, journal, planDigest, ?_, same, rfl, rfl⟩
  rintro b rfl
  exact beq_iff_eq.mp bound

/-! ### The comparisons -/

/-- The record is of a session that a run with this content continues. -/
def Resumes (d : String) (r : Record) : Prop :=
  d = r.targetDigest ∨ r.phase = .playing ∧ d = r.beforeRemoteDigest

theorem recorded_resumes {i : Inputs} {r : Record}
    (reads : Reads scope cloud «local» d journal i) (resumes : Resumes d r) :
    Triple (Held d) (beforeRecorded service scope i r) (fun _ _ => True)
      fun a _ => Other a.error := by
  have known : ¬(i.plan.remoteDigest ≠ r.beforeRemoteDigest ∧
      i.plan.remoteDigest ≠ r.targetDigest) := by
    rw [reads.plan]
    rcases resumes with at_target | ⟨-, at_before⟩
    · exact fun differ => differ.2 at_target
    · exact fun differ => differ.1 at_before
  have played : ¬(r.phase ≠ .playing ∧ i.localDigest ≠ r.targetDigest) := by
    rw [reads.digest]
    rcases resumes with at_target | ⟨playing, -⟩
    · exact fun differ => differ.2 at_target
    · exact fun differ => differ.1 playing
  unfold beforeRecorded
  rw [if_neg known, if_neg played]
  split
  · rename_i published
    have here : ¬ i.localDigest ≠ r.targetDigest := by
      rw [reads.digest, ← reads.plan]
      exact not_not_intro published.1
    rw [if_neg here, reads.plan]
    exact finish_triple r true
  · refine Triple.bind (lift_attention (exportLocal_keeps held_distant.steady)) fun e =>
      Triple.bind (lift_attention (update_keeps held_distant _ _ _)) fun _ _ _ => trivial

theorem recorded_conflict {i : Inputs} {r : Record}
    (reads : Reads scope cloud «local» d journal i) (stuck : ¬ Resumes d r) (w : World) :
    beforeRecorded service scope i r w = .error (.conflict i.plan) w := by
  have differ : d ≠ r.targetDigest := fun same => stuck (Or.inl same)
  unfold beforeRecorded
  rw [reads.plan, reads.digest]
  by_cases known : d = r.beforeRemoteDigest
  · -- the cloud is as before the session, but the local state is neither side of it
    have other : r.phase ≠ .playing := fun playing => stuck (Or.inr ⟨playing, known⟩)
    rw [if_neg fun both => both.1 known, if_pos ⟨other, differ⟩]
    rfl
  · -- the cloud is on neither side of the session
    rw [if_pos ⟨known, differ⟩]
    rfl

omit [Sha256] in
/-- Two sides with the same save set: there is nothing to do. -/
theorem decide_same {binding : String} {set : SaveSet} {old : Option SaveSet} {decision : Decision}
    (setBinding : set.binding = binding) (bound : old.any (·.binding != binding) = false)
    (decided : Cloud.decide binding (some set) (some set) old = .ok decision) :
    decision.action = .noop := by
  have any : [some set, some set, old].any
      (fun value => value.any (·.binding != binding)) = false := by
    simp [setBinding, bound]
  obtain ⟨_, -, decided⟩ := bind_eq_ok.mp decided
  rw [any] at decided
  simp only [Bool.false_eq_true, if_false, if_true] at decided
  cases decided
  rfl

theorem policy_noop {i : Inputs} (reads : Reads scope cloud «local» d journal i)
    (apart : NoContentCollision «local» cloud) (equal : Equal cloud «local» file d)
    {decision : Decision} (decided : policy scope i = .ok decision) : decision.action = .noop := by
  obtain ⟨left, hleft, decided⟩ := bind_eq_ok.mp decided
  obtain ⟨right, hright, decided⟩ := bind_eq_ok.mp decided
  obtain ⟨old, hold, decided⟩ := bind_eq_ok.mp decided
  obtain ⟨leftBinding, leftDigests⟩ := digests_fromState (mapError_eq_ok.mp hleft)
  obtain ⟨rightBinding, rightDigests⟩ := digests_fromState (mapError_eq_ok.mp hright)
  have canonical : canonical «local» = canonical cloud :=
    apart (equal.digest.trans equal.cloud.symm)
  rw [reads.local] at leftDigests
  -- Equal digests are equal content only where nothing collides.
  have same : left = right := by
    apply SaveSet.ext (leftBinding.trans rightBinding.symm)
    exact ((leftDigests.of_canonical canonical).unique (rightDigests.congr reads.remote))
  have bound : old.any (·.binding != scope.binding) = false := by
    cases baseline : i.baseline with
    | none =>
      rw [baseline] at hold
      cases hold
      rfl
    | some b =>
      rw [baseline] at hold
      obtain ⟨set, made, hold⟩ := bind_eq_ok.mp hold
      cases hold
      obtain ⟨setBinding, -⟩ := SaveSet.of_new (mapError_eq_ok.mp made)
      simp [setBinding, reads.baseline b baseline]
  rw [same] at decided
  exact decide_same rightBinding bound (mapError_eq_ok.mp decided)

theorem fine_policy (i : Inputs) : Fine (policy scope i) := by
  have baseline : Fine (i.baseline.mapM Import.Baseline.saveSet) := by
    cases i.baseline with
    | none => trivial
    | some b => exact Fine.bind (fine_told (saveSet_told _ _)) fun _ => fine_pure _
  exact (fine_told (fromState_told _ _)).bind fun _ =>
    (fine_told (fromState_told _ _)).bind fun _ => baseline.bind fun _ =>
      fine_told (decide_told _ _ _ _)

theorem fresh_noop {i : Inputs} (reads : Reads scope cloud «local» d journal i)
    (apart : NoContentCollision «local» cloud) (equal : Equal cloud «local» file d) :
    Triple (Held d) (beforeFresh service scope i) (fun _ _ => True) fun a _ => Other a.error := by
  have level : (i.localDigest != i.plan.remoteDigest) = false := by
    rw [reads.digest, reads.plan]
    exact bne_self_eq_false d
  have kept {α : Type} {m : EStateM Failure World α} (keeps : Keeps (Held d) m) :
      Triple (Held d) (liftM m : EStateM Attention World α) (fun _ => Held d)
        fun a _ => Other a.error := lift_attention keeps
  -- Both sides are level, so neither an offline session nor the policy finds a difference.
  unfold beforeFresh
  refine Triple.bind (kept (keeps_reading held_distant.steady fine_offline)) fun pending => ?_
  simp only [level, Bool.and_false, Bool.false_and, Bool.false_eq_true, if_false]
  cases decided : policy scope i with
  | error e => exact fun w _ => (fine_policy i).error decided
  | ok decision =>
    have noop := policy_noop reads apart equal decided
    have neither : ¬(decision.action = .conflict ∨ decision.action = .blocked) := by
      rw [noop]
      decide
    refine Triple.lift_bind rfl ?_
    rw [if_neg neither, noop]
    refine Triple.bind (kept (keeps_pure _)) fun _ =>
      Triple.bind (kept (exportLocal_keeps held_distant.steady)) fun e =>
      Triple.bind (kept (keeps_lift (fine_assertTarget _ _ _))) fun _ =>
      Triple.bind (kept (begin_keeps held_distant _ _ _)) fun record =>
      Triple.bind (kept (update_keeps held_distant _ _ _)) fun _ _ _ => trivial

/-! ### Sessions of equal content -/

/-- A session reports a conflict. -/
def Conflicts {α : Type} (r : EStateM.Result Attention World α) : Prop :=
  ∃ a w, r = .error a w ∧ a.error.code = .conflict

omit [Sha256] in
theorem no_conflict {α : Type} {P : World → Prop} {m : EStateM Attention World α}
    (triple : Triple P m (fun _ _ => True) fun a _ => Other a.error) {w : World} (holds : P w) :
    ¬ Conflicts (m w) := by
  rintro ⟨a, w', failed, conflict⟩
  have ended := triple w holds
  rw [failed] at ended
  exact ended conflict

/-- What `after` has read when the local state and the cloud have the same content. -/
theorem afterInputs_reads (equal : Equal cloud «local» file d) :
    Triple (Starts cloud file journal) (afterInputs service scope)
      (fun i w => Held d w ∧ i.plan.remoteDigest = d ∧ i.localDigest = d) fun e _ => Other e := by
  refine download_starts.bind fun snap => Quiet.fixed fun disk there => ?_
  obtain ⟨⟨rfl, rfl⟩, v, found, same⟩ := there
  refine Quiet.reading (fine_loadBaseline scope) fun baseline _ =>
    Quiet.reading (fine_prepare scope snap baseline) fun plan planned =>
    Quiet.reading (fine_load scope) fun record loaded => ?_
  obtain ⟨remoteDigest, -⟩ := prepare_digest found planned
  have planDigest : plan.remoteDigest = d :=
    Except.ok.inj ((remoteDigest.symm.trans (digest_congr same)).trans equal.cloud)
  cases record with
  -- `after` needs the record that `before` left
  | none => exact fun w _ => other_new (by decide)
  | some record =>
    refine exportLocal_quiet.bind fun e w holds => ?_
    obtain ⟨holds, exported⟩ := holds
    exact ⟨⟨holds.still, by rw [holds.cloud]; exact equal.cloud, trivial⟩, planDigest,
      (equal.exported exported).2⟩

theorem after_triple (equal : Equal cloud «local» file d) (expected : Option String) :
    Triple (Starts cloud file journal) (after service scope none expected) (fun _ _ => True)
      fun a _ => Other a.error := by
  refine Triple.bind (lift_attention (keeps_lift (fine_require (by decide)))) fun _ =>
    Triple.bind (lift_attention (afterInputs_reads equal)) fun i w holds => ?_
  obtain ⟨held, remote, «local»⟩ := holds
  have level : ¬(i.plan.remoteDigest ≠ i.record.beforeRemoteDigest ∧
      i.plan.remoteDigest ≠ i.localDigest) := fun differ => differ.2 (remote.trans local.symm)
  dsimp only
  rw [if_neg level, remote]
  exact finish_triple i.record false w held

theorem before_ok (service : Service) (scope : Scope) {w w' : World} {i : Inputs}
    (ran : inputs service scope w = .ok i w') :
    before service scope none w = i.record.elim (beforeFresh service scope i)
      (beforeRecorded service scope i) w' := by
  have lifted : (liftM (inputs service scope) : EStateM Attention World Inputs) w = .ok i w' := by
    dsimp only [liftM, monadLift, MonadLiftT.monadLift, MonadLift.monadLift]
    rw [ran]
  unfold before
  rw [run_bind lifted]
  cases i.record <;> rfl

theorem before_error (service : Service) (scope : Scope) {w w' : World} {e : Failure}
    (ran : inputs service scope w = .error e w') :
    before service scope none w = .error { error := e } w' := by
  have lifted : (liftM (inputs service scope) : EStateM Attention World Inputs) w =
      .error { error := e } w' := by
    dsimp only [liftM, monadLift, MonadLiftT.monadLift, MonadLift.monadLift]
    rw [ran]
  unfold before
  change EStateM.bind _ _ w = _
  unfold EStateM.bind
  rw [lifted]

/-- When nobody else changes the cloud and it has the content of the local file, a session reports
a conflict exactly at the start of a game, over a record that does not resume with this content. -/
theorem equal_content (service : Service) (scope : Scope) (w : World) («local» : State) (d : String)
    (still : ∀ move ∈ w.moves, move.edit = none)
    (equal : Equal w.server.cloud «local» w.disk.stateBin d)
    (apart : NoContentCollision «local» w.server.cloud) :
    (Conflicts (before service scope none w) ↔ succeeded (inputs service scope w) = true ∧
      ∃ r, w.disk.journal = some r ∧ ¬ Resumes d r) ∧
    ∀ expected, ¬ Conflicts (after service scope none expected w) := by
  have starts : Starts w.server.cloud w.disk.stateBin w.disk.journal w := ⟨still, rfl, rfl, rfl⟩
  refine ⟨?_, fun expected => no_conflict (after_triple equal expected) starts⟩
  have ended : Ends (inputs service scope w) _ _ := inputs_reads equal w starts
  -- Either side of the equivalence needs inputs that were read; then the journal decides.
  cases ran : inputs service scope w with
  | error e w' =>
    rw [ran] at ended
    constructor
    · rintro ⟨a, s, failed, conflict⟩
      rw [before_error service scope ran] at failed
      cases failed
      exact absurd conflict ended
    · exact fun both => Bool.noConfusion both.1
  | ok i w' =>
    rw [ran] at ended
    obtain ⟨held, reads⟩ := ended
    rw [before_ok service scope ran, reads.record]
    cases journal : w.disk.journal with
    | none =>
      constructor
      · intro conflict
        exact absurd conflict (no_conflict (fresh_noop reads apart equal) held)
      · rintro ⟨-, r, same, -⟩
        cases same
    | some r =>
      constructor
      · intro conflict
        refine ⟨rfl, r, rfl, fun resumes => ?_⟩
        exact no_conflict (recorded_resumes reads resumes) held conflict
      · rintro ⟨-, r', same, stuck⟩
        cases same
        exact ⟨_, w', recorded_conflict reads stuck w', rfl⟩

end

section

local instance : Sha256 := standardSha256

def emptyService : Service := countingService fun _ _ => emptyFolder titleScope.binding

/-- The file after a game that saved a slot. -/
def playedFile : Except Error Bytes :=
  SaveState.encode { generation := 1, containers :=
    (∅ : TextMap Container).insert "slot" { displayName := "slot", modified := 0, blobs := ∅ } }

/-- After a game over an empty cloud: the upload never reached the server, and the missing file was
restored. -/
def interruptedUpload : Option World := do
  let played ← playedFile.toOption
  let «namespace» ← titleScope.namespace.toOption
  let binding := titleScope.binding
  let snap := snapshotOf binding ("snapshot-" ++ simpleUuid 99) (emptyFolder binding)
  let snapshots := (∅ : TextMap Storage.Folder).insert snap.id (emptyFolder binding)
  let remote ← (Import.snapshot snapshots binding snap).toOption
  let first ← (exportFrom titleScope {}).toOption
  let game ← (exportFrom titleScope { stateBin := some played }).toOption
  let initial ← (Import.Backup.of binding «namespace» none first.encoded none).toOption
  let target ← (Import.Backup.of binding «namespace» (some played) played none).toOption
  let record := Record.first titleScope «namespace» (simpleUuid 97) ("backup-" ++ simpleUuid 1)
    (sha256 first.encoded) first.contentDigest snap remote first .uploading
  let record := Record.retarget record game ("backup-" ++ simpleUuid 2) (sha256 played)
  let backups := ((∅ : TextMap Import.Backup).insert ("backup-" ++ simpleUuid 1) initial).insert
    ("backup-" ++ simpleUuid 2) target
  return { disk := { snapshots, backups, journal := some { record with revision := 2 } } }

/-- The cloud and the local state are empty, and the record says that something else goes up. -/
def emptyAgain (w : World) : Bool :=
  w.moves.isEmpty && w.disk.stateBin.isNone && w.server.cloud.containers.toList.isEmpty &&
    w.disk.journal.any (fun r => r.phase ≠ .playing ∧ Import.digest {} ≠ .ok r.targetDigest) &&
    succeeded (inputs emptyService titleScope w)

theorem interruptedUpload_empty : interruptedUpload.any emptyAgain = true := by decide +kernel

/-- The next session reports a conflict between two empty states. -/
theorem equal_content_interrupted : ∃ w, interruptedUpload = some w ∧
    Conflicts (before emptyService titleScope none w) ∧
    ∀ expected, ¬ Conflicts (after emptyService titleScope none expected w) := by
  obtain ⟨w, reached, empty⟩ := (Option.any_eq_true _ _).mp interruptedUpload_empty
  simp only [emptyAgain, Bool.and_eq_true, List.isEmpty_iff, Option.isNone_iff_eq_none,
    Option.any_eq_true, decide_eq_true_eq] at empty
  obtain ⟨⟨⟨⟨moves, file⟩, cloud⟩, r, journal, phase, target⟩, reads⟩ := empty
  have same : ({} : State).containers = w.server.cloud.containers :=
    (Std.ExtTreeMap.toList_eq_nil_iff.mp cloud).symm
  obtain ⟨d, digest⟩ := digest_of_encodable encodable_empty
  have equal : Equal w.server.cloud {} w.disk.stateBin d := by
    refine ⟨?_, digest, (digest_congr same).symm.trans digest⟩
    rw [file]
    rfl
  have apart : NoContentCollision {} w.server.cloud := by
    intro _
    unfold canonical
    rw [same]
  have both := equal_content emptyService titleScope w {} d
    (by rw [moves]; exact fun _ there => (List.not_mem_nil there).elim) equal apart
  refine ⟨w, reached, both.1.mpr ⟨reads, r, journal, ?_⟩, both.2⟩
  rintro (here | ⟨playing, -⟩)
  · exact target (here ▸ digest)
  · exact phase playing

end

end Flightdeck.Cloud.Flow
