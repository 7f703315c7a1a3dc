import Flightdeck.Cloud.Exports

/-!
# Runs of the journal

What the calls that write the journal do to it, alone and in any order, with every other change of
the disk between them.  A record that was stored stays loadable as long as what it names is kept.
-/

namespace Flightdeck.Cloud.Session

open Foundation SaveState

variable [Sha256] {service : Service} {scope : Scope} {disk disk' : Disk} {r r' : Record}
  {e : LocalExport}

/-- The receipt was given for the scope and the target of the record. -/
def Verifies (scope : Scope) (receipt : Write.Receipt) (r : Record) : Prop :=
  receipt.binding = scope.binding ∧ receipt.source = r.targetDigest

/-- A record that `load` accepts on this disk. -/
def Loadable (scope : Scope) (disk : Disk) (r : Record) : Prop :=
  ∃ «namespace», scope.namespace = .ok «namespace» ∧ Valid disk scope.binding «namespace» r

theorem load_eq_some : Session.load scope disk = .ok (some r) ↔
    disk.journal = some r ∧ Loadable scope disk r := by
  unfold Session.load Loadable
  rw [bind_eq_ok]
  cases disk.journal with
  | none =>
    constructor
    · rintro ⟨_, _, h⟩
      cases h
    · rintro ⟨h, _⟩
      cases h
  | some stored =>
    change (∃ ns, _ ∧ (some <$> validated disk scope.binding ns stored) = _) ↔ _
    simp only [map_eq_ok, validated_eq_ok, Option.some.injEq]
    constructor
    · rintro ⟨«namespace», hnamespace, _, ⟨rfl, hvalid⟩, rfl⟩
      exact ⟨rfl, «namespace», hnamespace, hvalid⟩
    · rintro ⟨rfl, «namespace», hnamespace, hvalid⟩
      exact ⟨«namespace», hnamespace, _, ⟨rfl, hvalid⟩, rfl⟩

theorem load_eq_none (h : Session.load scope disk = .ok none) : disk.journal = none := by
  obtain ⟨«namespace», -, h⟩ := bind_eq_ok.mp h
  cases hjournal : disk.journal with
  | none => rfl
  | some stored =>
    rw [hjournal] at h
    obtain ⟨_, -, hnone⟩ := map_eq_ok.mp h
    cases hnone

theorem current_eq_ok : Session.current scope r disk = .ok () ↔
    (disk.journal = some r ∧ Loadable scope disk r) ∧ r.revision < I64_MAX := by
  unfold Session.current
  simp only [bind_eq_ok, require_ok, beq_iff_eq, decide_eq_true_eq, ← load_eq_some]
  constructor
  · rintro ⟨_, hload, _, rfl, hrevision⟩
    exact ⟨hload, hrevision⟩
  · rintro ⟨hload, hrevision⟩
    exact ⟨_, hload, (), rfl, hrevision⟩

theorem unchanged_eq_ok : e.unchanged disk = .ok () ↔
    (∃ state, disk.state = .ok (disk.stateBin, state)) ∧
      Import.rawDigest disk.stateBin = e.rawDigest := by
  unfold LocalExport.unchanged
  simp only [bind_eq_ok, require_ok, beq_iff_eq, Prod.exists]
  constructor
  · rintro ⟨raw, state, hstate, hraw⟩
    obtain ⟨-, -, rfl, -⟩ := Disk.state_eq_ok.mp hstate
    exact ⟨⟨state, hstate⟩, hraw⟩
  · rintro ⟨⟨state, hstate⟩, hraw⟩
    exact ⟨_, state, hstate, hraw⟩

/-! ## Parts of the calls -/

section

variable {R : Disk → Prop} {E : Failure → World → Prop}

theorem assertUnchanged_triple (hE : ∀ e w, OnDisk R w → E e w) :
    Triple (OnDisk R) (Flow.assertUnchanged e) (fun _ => OnDisk fun d => R d ∧ e.unchanged d = .ok ())
      E :=
  reading_onDisk hE

/-- The export fits the scope, and the file it was made from is still there. -/
structure Fits (scope : Scope) (e : LocalExport) (disk : Disk) : Prop where
  unchanged : e.unchanged disk = .ok ()
  binding : e.binding = scope.binding
  «namespace» : scope.namespace = .ok e.namespace

theorem access_triple (hE : ∀ e w, OnDisk R w → E e w) :
    Triple (OnDisk R) (Flow.access scope (some e))
      (fun _ => OnDisk fun d => R d ∧ Fits scope e d) E := by
  refine (lift_onDisk hE).bind fun «namespace» => ?_
  refine (assertUnchanged_triple fun e w h => hE e w h.1).bind fun _ => ?_
  refine (require_onDisk fun e w h => hE e w h.1.1).post fun _ w h => ?_
  obtain ⟨⟨⟨hR, hnamespace⟩, hunchanged⟩, hcheck⟩ := h
  rw [Bool.and_eq_true, beq_iff_eq, beq_iff_eq] at hcheck
  rw [← hcheck.2] at hnamespace
  exact ⟨hR, hunchanged, hcheck.1, hnamespace⟩

theorem access_none_triple (hE : ∀ e w, OnDisk R w → E e w) :
    Triple (OnDisk R) (Flow.access scope none) (fun _ => OnDisk R) E :=
  (lift_onDisk hE).bind fun _ => (Triple.pure ()).pre fun _ h => h.1

/-- What `capture` returns: a backup of the export on both sides, and the hash of its bytes. -/
def Captured (scope : Scope) (e : LocalExport) (disk d : Disk) (captured : String × String) : Prop :=
  Extends disk d ∧ captured.2 = sha256 e.encoded ∧
    Published scope.binding e.namespace (Flow.LocalExport.raw e) e.encoded none d captured.1

theorem capture_triple (hE : ∀ e w, OnDisk (Extends disk) w → E e w) :
    Triple (OnDisk (Extends disk)) (Flow.capture service scope e)
      (fun captured => OnDisk fun d => Captured scope e disk d captured) E := by
  refine ((assertUnchanged_triple hE).post fun _ w h => h.1).bind fun _ => ?_
  refine (backup_triple.mono (fun _ h => h) (fun _ _ h => h) (fun e w h => hE e w h)).bind
    fun id => ?_
  refine (assertUnchanged_triple (R := fun d => Extends disk d ∧
    Published scope.binding e.namespace (Flow.LocalExport.raw e) e.encoded none d id)
    fun e w h => hE e w h.1).bind fun _ => ?_
  exact (Triple.pure _).pre fun w h => ⟨h.1.1, rfl, h.1.2⟩

/-- The journal holds `r` and nothing else has changed. -/
def Stored (R : Disk → Prop) (r : Record) (new : Bool) (d : Disk) : Prop :=
  ∃ d₀, R d₀ ∧ (new = true → d₀.journal = none) ∧ d = { d₀ with journal := some r }

omit [Sha256] in
theorem store_triple {new : Bool} (hE : ∀ e w, OnDisk R w → E e w)
    (hafter : ∀ e w, OnDisk (Stored R r new) w → E e w) :
    Triple (OnDisk R) (Flow.store service r new) (fun _ => OnDisk (Stored R r new)) E := by
  unfold Flow.store
  refine (require_onDisk hE).bind fun _ => ?_
  refine writing_onDisk (fun e w h => hE e w h.1) (fun _ => hafter) fun d n a d' hd hwrite => ?_
  split at hwrite
  · cases hwrite
  · rename_i hnew
    cases hwrite
    refine ⟨d, hd.1, fun h => ?_, rfl⟩
    rw [h, Bool.true_and, Bool.not_eq_true, Option.isSome_eq_false_iff, Option.isNone_iff_eq_none]
      at hnew
    exact hnew

end

omit [Sha256] in
/-- The end of a call that stores a record and returns it. -/
theorem store_end {R : Disk → Prop} {P : World → Prop} {new : Bool} (h : ∀ w, OnDisk R w → P w)
    (hstored : ∀ w, OnDisk (Stored R r new) w → P w) :
    Triple (OnDisk R) (do Flow.store service r new; return r) (fun _ => P) fun _ => P := by
  have hstore : Triple (OnDisk R) (Flow.store service r new) (fun _ => OnDisk (Stored R r new))
      fun _ => P := store_triple (fun _ => h) fun _ => hstored
  exact hstore.bind fun _ w hw => hstored w hw

/-! ## The records that are stored -/

variable {binding «namespace» id : String}

theorem Extends.kept (h : Extends disk disk') (hvalid : Valid disk binding «namespace» r) :
    Kept r disk disk' := by
  obtain ⟨backups, rfl, hbackups⟩ := h
  have hkept : ∀ {id : String} {b : Import.Backup},
      Import.backupData disk.backups binding «namespace» id = .ok b →
        backups[id]? = disk.backups[id]? := by
    intro id b hb
    have hget := (backupData_eq_ok.mp hb).2.1
    rw [hget]
    exact hbackups id b hget
  obtain ⟨initial, _, hinitial, -⟩ := hvalid.initial
  obtain ⟨target, _, htarget, -⟩ := hvalid.target
  refine ⟨rfl, hkept hinitial, hkept htarget, fun id hid => ?_⟩
  have hconfirmed := hvalid.confirmed
  unfold FromConfirmed at hconfirmed
  rw [hid] at hconfirmed
  obtain ⟨confirmed, _, hconfirmed, -⟩ := hconfirmed
  exact hkept hconfirmed

theorem Extends.valid (h : Extends disk disk') (hvalid : Valid disk binding «namespace» r) :
    Valid disk' binding «namespace» r := (h.kept hvalid).valid hvalid

/-- Only the snapshots and the backups matter. -/
theorem Valid.journal (h : Valid disk binding «namespace» r) (journal : Option Record) :
    Valid { disk with journal } binding «namespace» r := by
  have hkept : Kept r disk { disk with journal } := ⟨rfl, rfl, rfl, fun _ _ => rfl⟩
  exact hkept.valid h

theorem Holds.fromTarget {raw : Option Bytes} {state : State} (he : e.Of raw state)
    (h : Holds e raw binding «namespace» disk id) :
    FromTarget disk binding «namespace» (Flow.Record.retarget r e id (sha256 e.encoded)) := by
  obtain ⟨value, hvalue, rfl, himported⟩ := h
  refine ⟨value, state, hvalue, ?_, ?_, he.generation.symm, he.contentDigest, he.rawDigest.symm⟩
  · rw [himported]
    exact mapError_eq_ok.mp he.decode_encoded
  · rw [himported]
    rfl

theorem Captured.holds {raw : Option Bytes} {state : State} {captured : String × String}
    (he : e.Of raw state) (h : Captured scope e disk disk' captured) :
    Holds e raw scope.binding e.namespace disk' captured.1 := by
  obtain ⟨-, -, hpublished⟩ := h
  rw [he.raw_eq] at hpublished
  exact hpublished.holds he

theorem Valid.retarget {raw : Option Bytes} {state : State} (h : Valid disk binding «namespace» r)
    (he : e.Of raw state) (hholds : Holds e raw binding «namespace» disk id) :
    Valid disk binding «namespace» (Flow.Record.retarget r e id (sha256 e.encoded)) where
  wellFormed := by
    obtain ⟨hheader, hdigests, hlocals, hreference⟩ := h.wellFormed
    simp only [List.all_cons, List.all_nil, Bool.and_eq_true] at hdigests hlocals
    refine ⟨hheader, ?_, ?_, hreference⟩
    · simp only [Flow.Record.retarget, List.all_cons, List.all_nil, Bool.and_eq_true]
      exact ⟨hdigests.1, hdigests.2.1, hdigests.2.2.1, digest_hex he.contentDigest,
        hexDigest_sha256 _, trivial⟩
    · simp only [Flow.Record.retarget, List.all_cons, List.all_nil, Bool.and_eq_true]
      rw [he.rawDigest]
      exact ⟨hlocals.1, missingOrDigest_rawDigest raw, trivial⟩
  snapshot := h.snapshot
  initial := h.initial
  target := hholds.fromTarget he
  confirmed := h.confirmed

theorem Valid.advance (h : Valid disk binding «namespace» r) (hrevision : r.revision < I64_MAX)
    (phase : Phase) :
    Valid disk binding «namespace» { r with phase, revision := r.revision + 1 } where
  wellFormed := by
    obtain ⟨hheader, hdigests, hlocals, hreference⟩ := h.wellFormed
    refine ⟨?_, hdigests, hlocals, hreference⟩
    simp only [Bool.and_eq_true, decide_eq_true_eq] at hheader ⊢
    exact ⟨hheader.1, hrevision⟩
  snapshot := h.snapshot
  initial := h.initial
  target := h.target
  confirmed := h.confirmed

theorem Valid.confirm (h : Valid disk binding «namespace» r) :
    Valid disk binding «namespace»
      { r with beforeRemoteDigest := r.targetDigest, confirmedBackupId := some r.targetBackupId } where
  wellFormed := by
    obtain ⟨hheader, hdigests, hlocals, hreference⟩ := h.wellFormed
    refine ⟨hheader, ?_, hlocals, hreference⟩
    simp only [List.all_cons, List.all_nil, Bool.and_eq_true] at hdigests ⊢
    exact ⟨hdigests.1, hdigests.2.2.2.1, hdigests.2.2⟩
  snapshot := h.snapshot
  initial := h.initial
  target := h.target
  confirmed := by
    obtain ⟨target, state, htarget, hstate, -, -, hdigest, -⟩ := h.target
    exact ⟨target, state, htarget, hstate, hdigest⟩

/-- What a session begins with. -/
theorem valid_first {snap : Storage.Snapshot} {remote : Import.Validated} {n : Nat}
    {remoteDigest : String} {raw : Option Bytes} {state : State} {phase : Phase}
    (hremote : Import.snapshot disk.snapshots scope.binding snap = .ok remote)
    (hdigest : Import.digest remote.state = .ok remoteDigest) (he : e.Of raw state)
    (hholds : Holds e raw scope.binding «namespace» disk id) :
    Valid disk scope.binding «namespace» (Flow.Record.first scope «namespace» (simpleUuid n) id
      (sha256 e.encoded) remoteDigest snap remote e phase) := by
  obtain ⟨hbinding, hconsistency, hid, hhex, -⟩ := snapshot_facts hremote
  obtain ⟨value, hvalue, horiginal, himported⟩ := hholds
  refine ⟨⟨?_, ?_, ?_, ?_⟩, ⟨remote, ?_, rfl, hdigest⟩, ⟨value, state, hvalue, ?_, ?_, he.contentDigest⟩,
    ⟨value, state, hvalue, ?_, ?_, he.generation.symm, he.contentDigest, ?_⟩, rfl⟩
  · simp only [Flow.Record.first, beq_self_eq_true, identifier_simpleUuid, Nat.zero_le, decide_true,
      Bool.and_self]
  · simp only [Flow.Record.first, List.all_cons, List.all_nil, digest_hex hdigest,
      digest_hex he.contentDigest, hexDigest_sha256, Bool.and_self]
  · simp only [Flow.Record.first, he.rawDigest, List.all_cons, List.all_nil, missingOrDigest_rawDigest, Bool.and_self]
  · simp only [Flow.Record.first, hid, hhex, Bool.and_self]
  · have hsame : Reference.snapshot (.mk snap.id remote.digest snap.containerCount snap.blobCount
        snap.totalBytes) scope.binding = snap := by
      rw [Reference.snapshot, ← hbinding, ← hconsistency]
    exact hsame.symm ▸ hremote
  · rw [horiginal]
    exact he.decoded
  · rw [horiginal]
    exact he.rawDigest.symm
  · rw [himported]
    exact mapError_eq_ok.mp he.decode_encoded
  · rw [himported]
    rfl
  · rw [horiginal]
    exact he.rawDigest.symm

/-! ## The calls -/

/-- An export that `export_local` made. -/
abbrev Export := { e : LocalExport // e.Made }

inductive Call where
  | begin (snap : Storage.Snapshot) (e : Export) (phase : Phase)
  | update (r : Record) (phase : Phase) (e : Option Export)
  | checkpoint (r : Record) (e : Export) (receipt : Write.Receipt)
  | complete (r : Record) (e : Export) (receipt : Write.Receipt)

namespace Call

/-- The record a call was given. -/
def record : Call → Option Record
  | .begin .. => none
  | .update r .. => some r
  | .checkpoint r .. => some r
  | .complete r .. => some r

def run (service : Service) (scope : Scope) : Call → EStateM Failure World Unit
  | .begin snap e phase => do
    let _ ← Flow.begin service scope snap e.1 phase
  | .update r phase e => do
    let _ ← Flow.update service scope r phase (e.map Subtype.val)
  | .checkpoint r e receipt => do
    let _ ← Flow.checkpoint service scope r e.1 receipt
  | .complete r e receipt => Flow.complete service scope r e.1 receipt

end Call

/-- No collision of two files: they are the same if their digests are. -/
def NoCollision (a b : Option Bytes) : Prop := Import.rawDigest a = Import.rawDigest b → a = b

/-- The local file is the target of the record: it has the recorded digest, so it is the file that
the target backup saved, and its content is the content of the target. -/
structure AtTarget (disk : Disk) (r : Record) (e : LocalExport) : Prop where
  digest : Import.rawDigest disk.stateBin = r.targetLocalSha256
  file : ∃ target, disk.backups[r.targetBackupId]? = some target ∧
    (NoCollision disk.stateBin target.original → disk.stateBin = target.original)
  content : ∃ state, disk.state = .ok (disk.stateBin, state) ∧
    (NoCollision disk.stateBin (Flow.LocalExport.raw e) →
      Import.digest state = .ok r.targetDigest)

/-- What a call may do to the journal. -/
inductive JournalStep (scope : Scope) (disk disk' : Disk) : Call → Prop where
  | kept {call : Call} (journal : disk'.journal = disk.journal) : JournalStep scope disk disk' call
  | began {snap : Storage.Snapshot} {e : Export} {phase : Phase} (r : Record)
      (before : disk.journal = none) (after : disk'.journal = some r)
      (loadable : Loadable scope disk' r) : JournalStep scope disk disk' (.begin snap e phase)
  | advanced {call : Call} (r r' : Record) (record : call.record = some r)
      (before : disk.journal = some r) (after : disk'.journal = some r')
      (session : r'.sessionId = r.sessionId) (revision : r'.revision = r.revision + 1)
      (loadable : Loadable scope disk' r') : JournalStep scope disk disk' call
  | removed {r : Record} {e : Export} {receipt : Write.Receipt} (before : disk.journal = some r)
      (after : disk'.journal = none) (verifies : Verifies scope receipt r)
      (target : AtTarget disk r e.1) : JournalStep scope disk disk' (.complete r e receipt)

omit [Sha256] in
theorem Extends.journal (h : Extends disk disk') : disk'.journal = disk.journal := by
  obtain ⟨_, rfl, -⟩ := h
  rfl

theorem kept_of_eq {call : Call} (h : disk' = disk) : JournalStep scope disk disk' call :=
  .kept (by rw [h])

theorem kept_of_extends {call : Call} (h : Extends disk disk') :
    JournalStep scope disk disk' call := .kept h.journal

/-- What a call ends with. -/
def Stepped (scope : Scope) (disk : Disk) (call : Call) : World → Prop :=
  OnDisk fun d => JournalStep scope disk d call

/-- What `begin` knows when it stores its record. -/
structure Begun (scope : Scope) (disk : Disk) (e : LocalExport) (remote : Import.Validated)
    («namespace» sessionId id hash remoteDigest : String) (d : Disk) : Prop where
  captured : Captured scope e disk d (id, hash)
  digest : Import.digest remote.state = .ok remoteDigest
  session : ∃ n, sessionId = simpleUuid n
  «namespace» : scope.namespace = .ok «namespace»

theorem Begun.stored {e : Export} {remote : Import.Validated} {snap : Storage.Snapshot}
    {sessionId hash remoteDigest : String} {phase : Phase} (hfits : Fits scope e.1 disk)
    (hremote : Import.snapshot disk.snapshots scope.binding snap = .ok remote)
    (h : Stored (Begun scope disk e.1 remote «namespace» sessionId id hash remoteDigest)
      (Flow.Record.first scope «namespace» sessionId id hash remoteDigest snap remote e.1 phase) true
      disk') : JournalStep scope disk disk' (.begin snap e phase) := by
  obtain ⟨d, ⟨hcaptured, hdigest, ⟨n, rfl⟩, hnamespace⟩, hfresh, rfl⟩ := h
  obtain ⟨raw, state, he⟩ := e.2.of
  have hns : e.1.namespace = «namespace» := Except.ok.inj (hfits.namespace.symm.trans hnamespace)
  have hhash : hash = sha256 e.1.encoded := hcaptured.2.1
  have hholds : Holds e.1 raw scope.binding e.1.namespace d id := hcaptured.holds he
  rw [hns] at hholds
  have hjournal : disk.journal = none := hcaptured.1.journal.symm.trans (hfresh rfl)
  refine .began _ hjournal rfl ⟨«namespace», hnamespace, Valid.journal ?_ _⟩
  rw [hhash]
  obtain ⟨backups, rfl, -⟩ := hcaptured.1
  exact valid_first hremote hdigest he hholds

theorem begin_triple {snap : Storage.Snapshot} {e : Export} {phase : Phase} :
    Triple (OnDisk (· = disk)) ((Call.begin snap e phase).run service scope)
      (fun _ => Stepped scope disk (.begin snap e phase))
      (fun _ => Stepped scope disk (.begin snap e phase)) := by
  have hsame : ∀ (_ : Failure) w, OnDisk (· = disk) w →
      Stepped scope disk (.begin snap e phase) w := fun _ w h => kept_of_eq h
  have hextends : ∀ (_ : Failure) w, OnDisk (Extends disk) w →
      Stepped scope disk (.begin snap e phase) w := fun _ w h => kept_of_extends h
  refine Triple.bind (Q := fun _ => Stepped scope disk (.begin snap e phase)) ?_ fun _ _ h => h
  unfold Flow.begin
  refine (require_onDisk hsame).bind fun _ => fixed_onDisk fun _ => ?_
  refine (access_triple hsame).bind fun _ => fixed_onDisk fun hfits => ?_
  refine (reading_onDisk hsame).bind fun existing => fixed_onDisk fun hload => ?_
  refine (require_onDisk hsame).bind fun _ => fixed_onDisk fun hnone => ?_
  rw [Option.isNone_iff_eq_none.mp hnone] at hload
  refine (reading_onDisk hsame).bind fun remote => fixed_onDisk fun hremote => ?_
  refine ((capture_triple hextends).pre fun w h => ?_).bind fun captured => ?_
  · exact (show w.disk = disk from h) ▸ Extends.refl w.disk
  obtain ⟨id, hash⟩ := captured
  refine (lift_onDisk fun f w h => hextends f w h.1).bind fun remoteDigest => ?_
  refine (writing_onDisk (Q := fun sessionId d => (Captured scope e.1 disk d (id, hash) ∧
      Import.digest remote.state = .ok remoteDigest) ∧ ∃ n, sessionId = simpleUuid n)
    (fun f w h => hextends f w h.1.1) (fun _ f w h => hextends f w h.1.1.1)
    fun d n a d' hd hwrite => ?_).bind fun sessionId => ?_
  · cases hwrite
    exact ⟨hd, n, rfl⟩
  refine (lift_onDisk fun f w h => hextends f w h.1.1.1).bind fun «namespace» => ?_
  have hbegun : ∀ w, OnDisk (fun d => ((Captured scope e.1 disk d (id, hash) ∧
      Import.digest remote.state = .ok remoteDigest) ∧ ∃ n, sessionId = simpleUuid n) ∧
      scope.namespace = .ok «namespace») w →
      OnDisk (Begun scope disk e.1 remote «namespace» sessionId id hash remoteDigest) w :=
    fun w h => ⟨h.1.1.1, h.1.1.2, h.1.2, h.2⟩
  refine Triple.pre (store_end (fun w h => hextends (.new .busy) w ?_) fun w h => ?_) hbegun
  · exact Begun.captured h |>.1
  · exact Begun.stored hfits hremote h

/-- A record that is stored over the current one. -/
theorem advanced_of_stored {call : Call} {R : Disk → Prop} (h : Stored R r' false disk')
    (hcall : call.record = some r) (hcurrent : disk.journal = some r ∧ Loadable scope disk r)
    (hsession : r'.sessionId = r.sessionId) (hrevision : r'.revision = r.revision + 1)
    (hvalid : ∀ «namespace», scope.namespace = .ok «namespace» →
      Valid disk scope.binding «namespace» r → ∀ d, R d → Valid d scope.binding «namespace» r') :
    JournalStep scope disk disk' call := by
  obtain ⟨hjournal, «namespace», hnamespace, hr⟩ := hcurrent
  obtain ⟨d, hd, -, rfl⟩ := h
  exact .advanced r r' hcall hjournal rfl hsession hrevision
    ⟨«namespace», hnamespace, (hvalid «namespace» hnamespace hr d hd).journal _⟩

/-- What a call on the current record ends with, if it succeeds. -/
def Advanced (scope : Scope) (disk : Disk) (r : Record) (call : Call) (w : World) : Prop :=
  Stepped scope disk call w ∧ disk.journal = some r

theorem update_none_triple {phase : Phase} :
    Triple (OnDisk (· = disk)) ((Call.update r phase none).run service scope)
      (fun _ => Advanced scope disk r (.update r phase none))
      (fun _ => Stepped scope disk (.update r phase none)) := by
  have hsame : ∀ (_ : Failure) w, OnDisk (· = disk) w →
      Stepped scope disk (.update r phase none) w := fun _ w h => kept_of_eq h
  refine Triple.bind (Q := fun _ => Advanced scope disk r (.update r phase none)) ?_
    fun _ _ h => h
  unfold Flow.update
  refine (require_onDisk hsame).bind fun _ => fixed_onDisk fun _ => ?_
  refine (access_none_triple hsame).bind fun _ => ?_
  refine (reading_onDisk hsame).bind fun _ => fixed_onDisk fun hcurrent => ?_
  obtain ⟨hcurrent, hrevision⟩ := current_eq_ok.mp hcurrent
  refine Triple.mono (store_end (hsame (.new .busy)) fun w h => ?_) (fun _ h => h)
    (fun _ _ h => ⟨h, hcurrent.1⟩) fun _ _ h => h
  refine advanced_of_stored h rfl hcurrent rfl rfl fun «namespace» _ hr d hd => ?_
  rw [show d = disk from hd]
  exact hr.advance hrevision phase

theorem update_some_triple {phase : Phase} {e : Export} :
    Triple (OnDisk (· = disk)) ((Call.update r phase (some e)).run service scope)
      (fun _ => Advanced scope disk r (.update r phase (some e)))
      (fun _ => Stepped scope disk (.update r phase (some e))) := by
  obtain ⟨raw, state, he⟩ := e.2.of
  have hsame : ∀ (_ : Failure) w, OnDisk (· = disk) w →
      Stepped scope disk (.update r phase (some e)) w := fun _ w h => kept_of_eq h
  have hextends : ∀ (_ : Failure) w, OnDisk (Extends disk) w →
      Stepped scope disk (.update r phase (some e)) w := fun _ w h => kept_of_extends h
  refine Triple.bind (Q := fun _ => Advanced scope disk r (.update r phase (some e))) ?_
    fun _ _ h => h
  unfold Flow.update
  refine (require_onDisk hsame).bind fun _ => fixed_onDisk fun _ => ?_
  refine (access_triple hsame).bind fun _ => fixed_onDisk fun hfits => ?_
  refine (reading_onDisk hsame).bind fun _ => fixed_onDisk fun hcurrent => ?_
  obtain ⟨hcurrent, hrevision⟩ := current_eq_ok.mp hcurrent
  refine Triple.bind (Q := fun value => OnDisk fun d => ∃ captured, Captured scope e.1 disk d captured ∧
    value = Flow.Record.retarget r e.1 captured.1 captured.2) ?_ fun value => ?_
  · refine ((capture_triple hextends).pre fun w h => ?_).bind fun captured => ?_
    · exact (show w.disk = disk from h) ▸ Extends.refl w.disk
    exact fun w h => ⟨captured, h, rfl⟩
  refine Triple.mono (store_end ?_ fun w h => ?_) (fun _ h => h)
    (fun _ _ h => ⟨h, hcurrent.1⟩) fun _ _ h => h
  · rintro w ⟨captured, hcaptured, -⟩
    exact hextends (.new .busy) w hcaptured.1
  · obtain ⟨d, ⟨captured, hcaptured, rfl⟩, hnew, hd⟩ := h
    refine advanced_of_stored (R := (· = d)) ⟨d, rfl, hnew, hd⟩ rfl hcurrent rfl rfl
      fun «namespace» hnamespace hr d' hd' => ?_
    have hholds := hcaptured.holds he
    rw [Except.ok.inj (hfits.namespace.symm.trans hnamespace)] at hholds
    rw [show d' = d from hd', hcaptured.2.1]
    exact ((hcaptured.1.valid hr).retarget he hholds).advance hrevision phase

/-- What `confirmed` checks. -/
structure Confirms (disk : Disk) (r : Record) (e : LocalExport) (receipt : Write.Receipt) :
    Prop where
  unchanged : e.unchanged disk = .ok ()
  content : e.contentDigest = r.targetDigest
  raw : e.rawDigest = r.targetLocalSha256
  binding : receipt.binding = e.binding
  source : receipt.source = r.targetDigest

theorem confirmed_triple {receipt : Write.Receipt} {E : Failure → World → Prop}
    (hE : ∀ f w, OnDisk (· = disk) w → E f w) :
    Triple (OnDisk (· = disk)) (Flow.confirmed r e receipt)
      (fun _ => OnDisk fun d => d = disk ∧ Confirms disk r e receipt) E := by
  refine (assertUnchanged_triple hE).bind fun _ => fixed_onDisk fun hunchanged => ?_
  refine (require_onDisk hE).bind fun _ => fixed_onDisk fun hcheck => ?_
  refine (require_onDisk hE).post fun _ w h => ⟨h.1, ?_⟩
  have hreceipt := h.2
  simp only [Bool.and_eq_true, beq_iff_eq] at hcheck hreceipt
  exact ⟨hunchanged, hcheck.1.1, hcheck.1.2, hreceipt.1, hreceipt.2⟩

theorem checkpoint_triple {e : Export} {receipt : Write.Receipt} :
    Triple (OnDisk (· = disk)) ((Call.checkpoint r e receipt).run service scope)
      (fun _ => Advanced scope disk r (.checkpoint r e receipt))
      (fun _ => Stepped scope disk (.checkpoint r e receipt)) := by
  have hsame : ∀ (_ : Failure) w, OnDisk (· = disk) w →
      Stepped scope disk (.checkpoint r e receipt) w := fun _ w h => kept_of_eq h
  refine Triple.bind (Q := fun _ => Advanced scope disk r (.checkpoint r e receipt)) ?_
    fun _ _ h => h
  unfold Flow.checkpoint
  refine (access_triple hsame).bind fun _ => fixed_onDisk fun _ => ?_
  refine (reading_onDisk hsame).bind fun _ => fixed_onDisk fun hcurrent => ?_
  obtain ⟨hcurrent, hrevision⟩ := current_eq_ok.mp hcurrent
  refine (confirmed_triple hsame).bind fun _ => fixed_onDisk fun _ => ?_
  refine Triple.mono (store_end (hsame (.new .busy)) fun w h => ?_) (fun _ h => h)
    (fun _ _ h => ⟨h, hcurrent.1⟩) fun _ _ h => h
  refine advanced_of_stored h rfl hcurrent rfl rfl fun «namespace» _ hr d hd => ?_
  rw [show d = disk from hd]
  exact hr.confirm.advance hrevision .playing

/-- The local file is still the one that the confirmed export was made from. -/
theorem Confirms.atTarget {e : Export} {receipt : Write.Receipt}
    (h : Confirms disk r e.1 receipt) (hr : Loadable scope disk r) : AtTarget disk r e.1 := by
  obtain ⟨raw, exported, he⟩ := e.2.of
  obtain ⟨⟨state, hstate⟩, hraw⟩ := unchanged_eq_ok.mp h.unchanged
  obtain ⟨«namespace», -, hvalid⟩ := hr
  obtain ⟨target, _, htarget, -, -, -, -, hlocal⟩ := hvalid.target
  have hdigest : Import.rawDigest disk.stateBin = r.targetLocalSha256 := hraw.trans h.raw
  refine ⟨hdigest, ⟨target, (backupData_eq_ok.mp htarget).2.1, fun hsame => ?_⟩, state, hstate,
    fun hsame => ?_⟩
  · exact hsame (hdigest.trans hlocal.symm)
  · rw [he.raw_eq] at hsame
    have hfile : disk.stateBin = raw := hsame (hraw.trans he.rawDigest)
    obtain ⟨-, -, -, hdecode⟩ := Disk.state_eq_ok.mp hstate
    rw [hfile] at hdecode
    have heq : state = exported := Except.ok.inj (hdecode.symm.trans he.decoded)
    rw [heq, ← h.content]
    exact he.contentDigest

theorem complete_triple {e : Export} {receipt : Write.Receipt} :
    Triple (OnDisk (· = disk)) ((Call.complete r e receipt).run service scope)
      (fun _ => Advanced scope disk r (.complete r e receipt))
      (fun _ => Stepped scope disk (.complete r e receipt)) := by
  have hsame : ∀ (_ : Failure) w, OnDisk (· = disk) w →
      Stepped scope disk (.complete r e receipt) w := fun _ w h => kept_of_eq h
  refine (access_triple hsame).bind fun _ => fixed_onDisk fun hfits => ?_
  refine (reading_onDisk hsame).bind fun _ => fixed_onDisk fun hcurrent => ?_
  obtain ⟨hcurrent, -⟩ := current_eq_ok.mp hcurrent
  refine (confirmed_triple hsame).bind fun _ => fixed_onDisk fun hconfirms => ?_
  have hremoved : ∀ d, d = { disk with journal := none } →
      JournalStep scope disk d (.complete r e receipt) := fun d hd =>
    .removed hcurrent.1 (by rw [hd]) ⟨hconfirms.binding.trans hfits.binding, hconfirms.source⟩
      (hconfirms.atTarget hcurrent.2)
  refine (writing_onDisk (Q := fun _ d => d = { disk with journal := none }) hsame
    (fun _ _ w h => hremoved w.disk h) fun d n _ d' hd hwrite => ?_).post
    fun _ w h => ⟨hremoved w.disk h, hcurrent.1⟩
  cases hwrite
  rw [show d = disk from hd]

theorem call_ends (call : Call) (w : World) :
    Ends (call.run service scope w)
      (fun _ w' => Stepped scope w.disk call w' ∧
        ∀ r, call.record = some r → w.disk.journal = some r)
      (fun _ => Stepped scope w.disk call) := by
  have hadvanced : ∀ {r : Record} (w' : World), call.record = some r →
      Advanced scope w.disk r call w' →
      Stepped scope w.disk call w' ∧ ∀ r, call.record = some r → w.disk.journal = some r := by
    intro r w' hcall h
    refine ⟨h.1, fun r' hr' => ?_⟩
    rw [hcall] at hr'
    exact (Option.some.inj hr') ▸ h.2
  cases call with
  | begin snap e phase => exact (begin_triple w rfl).mono (fun _ _ h => ⟨h, nofun⟩) fun _ _ h => h
  | update r phase e =>
    cases e with
    | none => exact (update_none_triple w rfl).mono (fun _ w' h => hadvanced w' rfl h) fun _ _ h => h
    | some e =>
      exact (update_some_triple w rfl).mono (fun _ w' h => hadvanced w' rfl h) fun _ _ h => h
  | checkpoint r e receipt =>
    exact (checkpoint_triple w rfl).mono (fun _ w' h => hadvanced w' rfl h) fun _ _ h => h
  | complete r e receipt =>
    exact (complete_triple w rfl).mono (fun _ w' h => hadvanced w' rfl h) fun _ _ h => h

theorem call_step (call : Call) (w : World) :
    JournalStep scope w.disk (stateOf (call.run service scope w)).disk call :=
  Ends.stateOf ((call_ends call w).mono (fun _ _ h => h.1) fun _ _ h => h)

/-! ## Runs -/

/-- A call with whatever surrounds its effects, or any change of the disk except the journal. -/
inductive Event where
  | call (moves : List Move) (made : Call)
  | other (disk : Disk)

def Event.run (service : Service) (scope : Scope) (w : World) : Event → World
  | .call moves made => stateOf (made.run service scope { w with moves, alive := true })
  | .other disk => { w with disk := { disk with journal := w.disk.journal } }

def runEvents (service : Service) (scope : Scope) (w : World) (events : List Event) : World :=
  events.foldl (Event.run service scope) w

theorem event_step (w : World) (event : Event) :
    (event.run service scope w).disk.journal = w.disk.journal ∨
      ∃ moves call, event = .call moves call ∧
        JournalStep scope w.disk (event.run service scope w).disk call := by
  cases event with
  | call moves call => exact Or.inr ⟨moves, call, rfl, call_step call { w with moves, alive := true }⟩
  | other disk => exact Or.inl rfl

/-- From one event to the next the record stays, or a record of the same session with a higher
revision replaces it. -/
theorem event_record {w : World} {event : Event} (hr : w.disk.journal = some r)
    (hr' : (event.run service scope w).disk.journal = some r') :
    r' = r ∨ r'.sessionId = r.sessionId ∧ r.revision < r'.revision := by
  rcases event_step w event with hkept | ⟨moves, call, -, hstep⟩
  · rw [hkept, hr] at hr'
    exact Or.inl (Option.some.inj hr').symm
  · cases hstep with
    | kept hkept =>
      rw [hkept, hr] at hr'
      exact Or.inl (Option.some.inj hr').symm
    | began first hbefore hafter =>
      rw [hr] at hbefore
      cases hbefore
    | advanced old new hcall hbefore hafter hsession hrevision =>
      rw [hr] at hbefore
      rw [hr'] at hafter
      cases hbefore
      cases hafter
      exact Or.inr ⟨hsession, by omega⟩
    | removed hbefore hafter =>
      rw [hr'] at hafter
      cases hafter

/-- As long as the journal is not removed, its revisions never go back. -/
theorem events_record {w : World} {events : List Event} (hr : w.disk.journal = some r)
    (hr' : (runEvents service scope w events).disk.journal = some r')
    (hkept : ∀ part, part <+: events → (runEvents service scope w part).disk.journal ≠ none) :
    r' = r ∨ r'.sessionId = r.sessionId ∧ r.revision < r'.revision := by
  induction events generalizing w r with
  | nil =>
    change w.disk.journal = some r' at hr'
    rw [hr] at hr'
    exact Or.inl (Option.some.inj hr').symm
  | cons event events ih =>
    have hfirst : (event.run service scope w).disk.journal ≠ none :=
      hkept [event] (List.prefix_append [event] events)
    obtain ⟨r₁, hr₁⟩ := Option.ne_none_iff_exists'.mp hfirst
    have hrest := ih hr₁ hr' fun part hpart =>
      hkept (event :: part) (List.prefix_cons_inj event |>.mpr hpart)
    rcases event_record hr hr₁ with rfl | ⟨hsession, hrevision⟩
    · exact hrest
    · rcases hrest with rfl | ⟨hsession', hrevision'⟩
      · exact Or.inr ⟨hsession, hrevision⟩
      · exact Or.inr ⟨hsession'.trans hsession, by omega⟩

/-- A record that an event stored is valid at that time. -/
theorem event_stored {w : World} {event : Event} (hbefore : w.disk.journal ≠ some r)
    (hafter : (event.run service scope w).disk.journal = some r) :
    Loadable scope (event.run service scope w).disk r := by
  rcases event_step w event with hkept | ⟨moves, call, -, hstep⟩
  · rw [hkept] at hafter
    exact absurd hafter hbefore
  · cases hstep with
    | kept hkept =>
      rw [hkept] at hafter
      exact absurd hafter hbefore
    | began first _ hfirst hloadable =>
      rw [hafter] at hfirst
      exact (Option.some.inj hfirst) ▸ hloadable
    | advanced old new _ _ hnew _ _ hloadable =>
      rw [hafter] at hnew
      exact (Option.some.inj hnew) ▸ hloadable
    | removed _ hnone =>
      rw [hafter] at hnone
      cases hnone

/-- What holds of the journal in every run, from any world. -/
structure JournalLaws (service : Service) (scope : Scope) : Prop where
  /-- A record that an event stored is loaded as it is, as long as the journal holds it and what it
  names is kept. -/
  reloads (w : World) (event : Event) (later : List Event) (r : Record) :
    w.disk.journal ≠ some r → (event.run service scope w).disk.journal = some r →
    (runEvents service scope w (event :: later)).disk.journal = some r →
    Kept r (event.run service scope w).disk (runEvents service scope w (event :: later)).disk →
    Session.load scope (runEvents service scope w (event :: later)).disk = .ok (some r)
  /-- A call with another record than the stored one fails and leaves the journal. -/
  fenced (w : World) (call : Call) (r : Record) :
    call.record = some r → w.disk.journal ≠ some r →
    succeeded (call.run service scope w) = false ∧
      (stateOf (call.run service scope w)).disk.journal = w.disk.journal
  /-- Another record that follows belongs to the same session and has a higher revision. -/
  increases (w : World) (events : List Event) (r r' : Record) :
    w.disk.journal = some r → (runEvents service scope w events).disk.journal = some r' →
    (∀ part, part <+: events → (runEvents service scope w part).disk.journal ≠ none) →
    r' = r ∨ r'.sessionId = r.sessionId ∧ r.revision < r'.revision
  /-- Only `complete` removes the journal, with a receipt for the target that the local file is. -/
  removed (w : World) (event : Event) (r : Record) :
    w.disk.journal = some r → (event.run service scope w).disk.journal = none →
    ∃ moves e receipt, event = .call moves (.complete r e receipt) ∧
      Verifies scope receipt r ∧ AtTarget w.disk r e.1

theorem session_journal (service : Service) (scope : Scope) : JournalLaws service scope where
  reloads := by
    intro w event later r hbefore hafter hjournal hkept
    obtain ⟨«namespace», hnamespace, hvalid⟩ := event_stored hbefore hafter
    exact load_eq_some.mpr ⟨hjournal, «namespace», hnamespace, hkept.valid hvalid⟩
  fenced := by
    intro w call r hcall hother
    have hends : Ends (call.run service scope w) _ _ := call_ends call w
    constructor
    · cases hrun : call.run service scope w with
      | ok a w' =>
        rw [hrun] at hends
        exact absurd (hends.2 r hcall) hother
      | error e w' => rfl
    · have hstep : JournalStep scope w.disk (stateOf (call.run service scope w)).disk call :=
        call_step call w
      cases hstep with
      | kept hkept => exact hkept
      | began => cases hcall
      | advanced old new hrecord hbefore =>
        rw [hcall] at hrecord
        exact absurd ((Option.some.inj hrecord) ▸ hbefore) hother
      | removed hbefore => exact absurd ((Option.some.inj hcall) ▸ hbefore) hother
  increases w events r r' := events_record
  removed := by
    intro w event r hr hnone
    rcases event_step w event with hkept | ⟨moves, call, rfl, hstep⟩
    · rw [hkept, hr] at hnone
      cases hnone
    · cases hstep with
      | kept hkept =>
        rw [hkept, hr] at hnone
        cases hnone
      | began first hbefore =>
        rw [hr] at hbefore
        cases hbefore
      | advanced old new _ _ hnew =>
        rw [hnone] at hnew
        cases hnew
      | removed hbefore _ hverifies htarget =>
        rw [hr] at hbefore
        cases hbefore
        exact ⟨moves, _, _, rfl, hverifies, htarget⟩

end Flightdeck.Cloud.Session
