import Flightdeck.Cloud.WriteProgress

/-!
# What an upload guarantees

The release of the lease, and the two results about whole uploads: which calls an upload may make,
and what its receipt or its failure says about the cloud.
-/

namespace Flightdeck.Cloud.Write

open Foundation SaveState

variable {σ : Type}

/-- A log and the release of its lease, if there was one. -/
inductive AfterRelease (l : Log) : List Event → Prop
  | kept : AfterRelease l l.history
  | released (reply : Except Failure UInt16) (hacquired : l.acquired = true) :
      AfterRelease l (.release reply :: l.history)

theorem AfterRelease.mutations {l : Log} {h : List Event} (hafter : AfterRelease l h) :
    Write.mutations h = Write.mutations l.history := by
  cases hafter with
  | kept => rfl
  | released reply => exact mutations_add rfl

theorem AfterRelease.reads {l : Log} {h : List Event} (hafter : AfterRelease l h) :
    Write.reads h = Write.reads l.history := by
  cases hafter with
  | kept => rfl
  | released reply => rfl

section

variable [Sha256] {expected source : String} {«local» : State}

/-- How the closure of `upload` ends. -/
def BodyEnds (expected source : String) («local» : State) (result : Except Failure Unit)
    (l : Log) : Prop :=
  match result with
  | .ok () => ∃ first holder, Completed expected source «local» first holder l
  | .error _ => Sound expected «local» l

theorem runBody_logged (c : Context σ) (expected source : String) («local» : State) (total : Nat) :
    Triple (fun s : σ × List Event => s.2 = [])
      (runBody c.recorded «local» expected source total)
      (fun r s => s = r.2.world ∧ BodyEnds expected source «local» r.1 r.2.log)
      (fun _ _ => False) := by
  rintro ⟨world, h⟩ rfl
  have hbody : Ends (body c.recorded «local» expected source total { world := (world, []) })
      (fun _ run => ∃ first holder, Completed expected source «local» first holder run.log)
      (fun _ run => Sound expected «local» run.log) := body_logged c source total _ rfl
  unfold runBody
  cases hrun : body c.recorded «local» expected source total { world := (world, []) } with
  | ok u run =>
    rw [hrun] at hbody
    exact ⟨rfl, hbody⟩
  | error e run =>
    rw [hrun] at hbody
    exact ⟨rfl, hbody⟩

omit [Sha256] in
/-- The release is the very last call, and only a lease that is ours is released. -/
theorem release_logged (c : Context σ) {acquired : Bool} {l : Log}
    (hacquired : acquired = true → l.acquired = true) :
    Triple (fun s : σ × List Event => s.2 = l.history) (release c.recorded acquired)
      (fun _ s => AfterRelease l s.2) (fun _ _ => False) := by
  cases acquired with
  | false =>
    intro s hs
    change AfterRelease l s.2
    rw [hs]
    exact .kept
  | true =>
    have hsent : Triple (fun s : σ × List Event => s.2 = l.history)
        (attempt (c.recorded.ops.release c.recorded.limits.cleanup))
        (fun _ s => AfterRelease l s.2) (fun (_ : Failure) _ => False) := by
      apply Triple.attempt
      intro s hs
      change Ends (recorded Event.release (c.ops.release _) s) _ _
      unfold recorded
      rw [hs]
      cases c.ops.release c.recorded.limits.cleanup s.1 with
      | ok status world => exact .released _ (hacquired rfl)
      | error e world => exact .released _ (hacquired rfl)
    refine hsent.bind fun reply => ?_
    cases reply with
    | ok status => exact fun _ h => h
    | error e => exact fun _ h => h

/-- What the caller is told about the log at the end of the upload. -/
inductive Reported (expected source : String) («local» : State) (l : Log) :
    Except Failure Receipt → Prop
  | receipt (receipt : Receipt) {first : State} {holder : String}
      (hcompleted : Completed expected source «local» first holder l)
      (hbefore : receipt.before = expected) (hchanged : receipt.changed = l.committed) :
      Reported expected source «local» l (.ok receipt)
  | failure (error : Failure) (hsound : Sound expected «local» l)
      (hcommitted : error.committedContainers = l.committed)
      (hrecovery : error.recoveryRequired = l.mutationAttempted) :
      Reported expected source «local» l (.error error)

theorem report_reported (scope : Scope) {result : Except Failure Unit}
    {run : Run (σ × List Event)} (hbody : BodyEnds expected source «local» result run.log)
    (released : Bool) : Reported expected source «local» run.log
      (report scope «local» expected source result run released) := by
  cases result with
  | error e => exact .failure _ hbody rfl rfl
  | ok u =>
    obtain ⟨first, holder, hcompleted⟩ := hbody
    exact .receipt _ hcompleted rfl rfl

theorem finish_logged (c : Context σ) (scope : Scope) {result : Except Failure Unit}
    {run : Run (σ × List Event)} (hbody : BodyEnds expected source «local» result run.log) :
    Triple (· = run.world) (finish c.recorded scope «local» expected source result run)
      (fun receipt s => Reported expected source «local» run.log (.ok receipt) ∧
        AfterRelease run.log s.2)
      (fun error s => Reported expected source «local» run.log (.error error) ∧
        AfterRelease run.log s.2) := by
  have hrelease (acquired : Bool) (hacquired : acquired = true → run.log.acquired = true) :
      Triple (· = run.world) (release c.recorded acquired)
        (fun _ s => AfterRelease run.log s.2)
        (fun error s => Reported expected source «local» run.log (.error error) ∧
          AfterRelease run.log s.2) := by
    refine (release_logged c hacquired).mono ?_ (fun _ _ h => h) fun _ _ h => h.elim
    rintro _ rfl
    rfl
  unfold finish
  refine (hrelease _ ?_).bind fun released => ?_
  · cases result with
    | ok u => exact fun h => h
    | error e => exact fun h => (Bool.and_eq_true_iff.mp h).1
  · have hreport := report_reported scope hbody released
    refine Triple.lift (fun receipt s hs hx => ?_) fun error s hs hx => ?_
    · rw [hx] at hreport
      exact ⟨hreport, hs⟩
    · rw [hx] at hreport
      exact ⟨hreport, hs⟩

theorem upload_logged («local» : State) (expected : String) (scope : Scope) (ops : Operations σ) (env : Ambient σ) (limits : Limits) :
    Triple (fun s : σ × List Event => s.2 = [])
      (upload scope ops.recorded «local» expected (recordedEnv env) limits)
      (fun receipt s => ∃ source l, Import.digest «local» = .ok source ∧
        Reported expected source «local» l (.ok receipt) ∧ AfterRelease l s.2)
      (fun error s => ∃ source l, Reported expected source «local» l (.error error) ∧
        AfterRelease l s.2) := by
  have hrefused (code : Code) (s : σ × List Event) (hs : s.2 = []) :
      ∃ source l, Reported expected source «local» l (.error (.new code)) ∧ AfterRelease l s.2 :=
    ⟨"", .start, .failure _ sound_start rfl rfl, hs ▸ .kept⟩
  have hrequire (ok : Bool) (code : Code) : Triple (fun s : σ × List Event => s.2 = [])
      (liftM (Cloud.require ok code) : EStateM Failure (σ × List Event) Unit)
      (fun _ s => s.2 = []) (fun error s => ∃ source l,
        Reported expected source «local» l (.error error) ∧ AfterRelease l s.2) := by
    refine Triple.lift (fun _ _ hs _ => hs) fun e s hs hx => ?_
    rw [(require_eq_error.mp hx).2]
    exact hrefused code s hs
  unfold upload
  refine (hrequire _ _).bind fun _ => (hrequire _ _).bind fun _ => ?_
  refine Triple.bind (Q := fun _ (s : σ × List Event) => s.2 = [])
    (Triple.lift (fun _ _ hs _ => hs) fun e s hs hx => ?_) fun _ => ?_
  · obtain ⟨_, -, rfl⟩ := mapError_eq_error.mp hx
    exact hrefused _ s hs
  cases hsource : Import.digest «local» with
  | error e =>
    intro s hs
    obtain ⟨_, -, rfl⟩ := mapError_eq_error.mp hsource
    exact hrefused _ s hs
  | ok source =>
    simp only [lift_ok_bind]
    refine (hrequire _ _).bind fun _ => ?_
    have hnow : Triple (fun s : σ × List Event => s.2 = []) (recordedEnv env).instant
        (fun _ s => s.2 = []) (fun error s => ∃ source l,
          Reported expected source «local» l (.error error) ∧ AfterRelease l s.2) :=
      fun s hs => hs
    refine hnow.bind fun now => ?_
    let c : Context σ := { ops, env, limits, deadline := now + limits.deadline }
    refine ((runBody_logged c expected source «local» _).mono (fun _ h => h) (fun _ _ h => h)
      fun _ _ h => h.elim).bind fun r => ?_
    rintro s ⟨rfl, hbody⟩
    exact (finish_logged c scope hbody r.2.world rfl).mono
      (fun receipt s h => ⟨source, _, rfl, h⟩) fun error s h => ⟨source, _, h⟩

/-! ## The history of a whole upload -/

/-- The calls that the server and the local file have seen in the end. -/
def history {α : Type} (r : EStateM.Result Failure (σ × List Event) α) : List Event :=
  match r with
  | .ok _ s | .error _ s => s.2

/-- The calls of an upload, newest first. -/
def uploadHistory (scope : Scope) (ops : Operations σ) («local» : State) (expected : String)
    (env : Ambient σ) (limits : Limits) (world : σ) : List Event :=
  history (upload scope ops.recorded «local» expected (recordedEnv env) limits (world, []))

/-- The upload is safe for the cloud and for the lease of others. -/
structure Safe (expected : String) (h : List Event) : Prop where
  acquiredFirst : ∀ newer reply older, h = newer ++ .acquire reply :: older →
    ∀ e ∈ older, e.isCall = false
  opened : ∀ newer e older, h = newer ++ e :: older → e.isWrite = true →
    ∃ owner first, Opened expected older owner first
  fenced : ∀ newer e older name, h = newer ++ e :: older → e.mutation = some name →
    ∃ owner first, Opened expected older owner first ∧ Fenced older owner
  once : (mutations h).Nodup
  released : ∀ newer reply older, h = newer ++ .release reply :: older →
    (∀ e ∈ newer, e.isCall = false) ∧ (∀ e ∈ older, e.isRelease = false) ∧ Ours older

theorem EachStep.mutations_nodup {h : List Event} (hsteps : EachStep (Allowed expected) h) :
    (mutations h).Nodup := by
  induction h with
  | nil => exact List.nodup_nil
  | cons e older ih =>
    have hrest := ih hsteps.2
    unfold mutations at hrest ⊢
    rw [List.filterMap_cons]
    cases he : e.mutation with
    | none => exact hrest
    | some name => exact List.nodup_cons.mpr ⟨hsteps.1.once name he, hrest⟩

/-- A history in which every step is allowed is safe. -/
theorem safe_of_steps {h : List Event} (hsteps : EachStep (Allowed expected) h) :
    Safe expected h where
  acquiredFirst := by
    rintro newer reply older rfl
    exact hsteps.at.first rfl
  opened := by
    rintro newer e older rfl
    exact hsteps.at.opened
  fenced := by
    rintro newer e older name rfl
    exact hsteps.at.fenced name
  once := EachStep.mutations_nodup hsteps
  released := by
    rintro newer reply older rfl
    have hthis := hsteps.at
    refine ⟨fun e he => ?_, hthis.unreleased rfl, hthis.released rfl⟩
    -- a call after the release would have to find no release before it
    obtain ⟨later, between, rfl⟩ := List.append_of_mem he
    rw [List.append_assoc, List.cons_append] at hsteps
    by_contra hcall
    have hnone := hsteps.at.unreleased (Bool.not_eq_false _ ▸ hcall) (.release reply)
      (List.mem_append_right _ List.mem_cons_self)
    cases hnone

theorem AfterRelease.steps {l : Log} {h : List Event} (hafter : AfterRelease l h)
    (hl : Sound expected «local» l) : EachStep (Allowed expected) h := by
  cases hafter with
  | kept => exact hl.steps
  | released reply hacquired =>
    exact ⟨⟨nofun, fun _ => hl.unreleased, nofun, nofun, nofun, fun _ => hl.ours hacquired⟩, hl.steps⟩

theorem Reported.sound {l : Log} {result : Except Failure Receipt}
    (h : Reported expected source «local» l result) : Sound expected «local» l := by
  cases h with
  | receipt receipt hcompleted => exact hcompleted.progress.sound
  | failure error hsound => exact hsound

/-- Whatever the server answers and whenever the upload is cancelled: nothing is written before the
lease is held and the cloud was found as expected, every mutation is fenced by a renewal, no
container is mutated twice, and only an own lease is released, at the very end. -/
theorem upload_safe (scope : Scope) (ops : Operations σ) («local» : State) (expected : String)
    (env : Ambient σ) (limits : Limits) (world : σ) :
    Safe expected (uploadHistory scope ops «local» expected env limits world) := by
  apply safe_of_steps
  have h := upload_logged «local» expected scope ops env limits (world, []) rfl
  unfold uploadHistory history
  cases hrun : upload scope ops.recorded «local» expected (recordedEnv env) limits (world, []) with
  | ok receipt s =>
    rw [hrun] at h
    obtain ⟨source, l, -, hreported, hafter⟩ := h
    exact hafter.steps hreported.sound
  | error e s =>
    rw [hrun] at h
    obtain ⟨source, l, hreported, hafter⟩ := h
    exact hafter.steps hreported.sound

/-! ## The accounts of an upload -/

/-- Both sides have the container with the same content digest, or neither has it. -/
def SameContent («local» first : State) (name : String) : Prop :=
  ∃ digest, entryDigest name «local».containers[name]? = .ok digest ∧
    entryDigest name first.containers[name]? = .ok digest

theorem sameContent_of_absent {first : State} {name : String}
    (hlocal : name ∉ «local».containers) (hfirst : name ∉ first.containers) :
    SameContent «local» first name := by
  refine ⟨none, ?_, ?_⟩
  · rw [Std.ExtTreeMap.getElem?_eq_none hlocal]
    rfl
  · rw [Std.ExtTreeMap.getElem?_eq_none hfirst]
    rfl

theorem entryDigest_some_ne (name : String) (entry : Container) :
    entryDigest name (some entry) ≠ .ok none := by
  simp only [entryDigest]
  cases Import.digest (single name entry) <;> simp

theorem sameEntry_eq_true {name : String} {target old : Option Container}
    (hpresent : target.isSome = true ∨ old.isSome = true) :
    sameEntry name target old = .ok true ↔
      ∃ digest, entryDigest name target = .ok digest ∧ entryDigest name old = .ok digest := by
  cases target with
  | none =>
    cases old with
    | none => cases hpresent <;> contradiction
    | some old =>
      refine ⟨nofun, ?_⟩
      rintro ⟨digest, htarget, hold⟩
      cases htarget
      exact absurd hold (entryDigest_some_ne name old)
  | some target =>
    cases old with
    | none =>
      refine ⟨nofun, ?_⟩
      rintro ⟨digest, htarget, hold⟩
      cases hold
      exact absurd htarget (entryDigest_some_ne name target)
    | some old =>
      unfold sameEntry
      rw [bind_eq_ok]
      constructor
      · rintro ⟨digest, htarget, h⟩
        obtain ⟨digest', hold, h⟩ := bind_eq_ok.mp h
        have heq : (digest == digest') = true := Except.ok.inj h
        rw [beq_iff_eq] at heq
        exact ⟨digest, htarget, heq ▸ hold⟩
      · rintro ⟨digest, htarget, hold⟩
        refine ⟨digest, htarget, bind_eq_ok.mpr ⟨digest, hold, ?_⟩⟩
        rw [beq_self_eq_true]
        rfl

/-- The containers that an upload replaces or deletes are those that differ. -/
theorem mem_changed {first : State} {name : String} :
    name ∈ (uploadNames «local» first).filter (changed «local» first) ↔
      ¬ SameContent «local» first name := by
  rw [List.mem_filter, uploadNames, mem_unionNames]
  constructor
  · rintro ⟨hmem, hchanged⟩ hsame
    have hpresent : «local».containers[name]?.isSome = true ∨
        first.containers[name]?.isSome = true := by
      simpa using hmem
    rw [changed, (sameEntry_eq_true hpresent).mpr hsame] at hchanged
    cases hchanged
  · intro hdiffers
    have hmem : name ∈ «local».containers ∨ name ∈ first.containers := by
      by_contra habsent
      rw [not_or] at habsent
      exact hdiffers (sameContent_of_absent habsent.1 habsent.2)
    have hpresent : «local».containers[name]?.isSome = true ∨
        first.containers[name]?.isSome = true := by
      simpa using hmem
    refine ⟨by simpa using hmem, ?_⟩
    unfold changed
    cases hsame : sameEntry name «local».containers[name]? first.containers[name]? with
    | error e => rfl
    | ok same =>
      cases same with
      | false => rfl
      | true => exact absurd ((sameEntry_eq_true hpresent).mp hsame) hdiffers

/-- A receipt: the cloud was read before anything was written and had the content `before`; the
containers that differed, and no others, were each replaced or deleted once; the last read bypassed
the cache for all of them and showed the local content. -/
structure Accounted («local» : State) (expected : String) (receipt : Receipt) (h : List Event) :
    Prop where
  firstRead : ∃ (first : State) (names : List String), (reads h).getLast? = some (∅, .ok first) ∧
    Import.digest first = .ok receipt.before ∧ receipt.before = expected ∧
    (mutations h).Perm (names.map wireName) ∧ names.Nodup ∧ names.length = receipt.changed ∧
    ∀ name, name ∈ names ↔ ¬ SameContent «local» first name
  lastRead : ∃ forced last, (reads h).head? = some (forced, .ok last) ∧
    (∀ name, name ∈ forced ↔ wireName name ∈ mutations h) ∧
    ∃ digest, Import.digest last = .ok digest ∧ Import.digest «local» = .ok digest

/-- A failure: whoever sees it knows whether the cloud may have changed, and how many containers are
known to be replaced. -/
structure Recoverable («local» : State) (error : Failure) (h : List Event) : Prop where
  recovery : mutations h ≠ [] → error.recoveryRequired = true
  committed : ∃ names : List String, names.Nodup ∧ names.length = error.committedContainers ∧
    ∀ name, name ∈ names ↔ Confirmed «local» name h

theorem AfterRelease.confirmed {l : Log} {h : List Event} (hafter : AfterRelease l h)
    (name : String) : Confirmed «local» name h ↔ Confirmed «local» name l.history := by
  cases hafter with
  | kept => exact Iff.rfl
  | released reply => exact confirmed_add (fun hpasses => by cases hpasses) name

theorem Completed.accounted {first : State} {holder : String} {l : Log} {h : List Event}
    {receipt : Receipt} (hcompleted : Completed expected source «local» first holder l)
    (hsource : Import.digest «local» = .ok source) (hafter : AfterRelease l h)
    (hbefore : receipt.before = expected) (hchanged : receipt.changed = l.committed) :
    Accounted «local» expected receipt h := by
  have hp := hcompleted.progress
  have hnodup : ((uploadNames «local» first).filter (changed «local» first)).Nodup :=
    (uploadNames_nodup «local» first).filter _
  have hperm : (mutations h).Perm
      (((uploadNames «local» first).filter (changed «local» first)).map wireName) := by
    rw [hafter.mutations, hp.mutations]
    exact (List.reverse_perm _).map _
  constructor
  · refine ⟨first, _, hafter.reads ▸ hp.firstRead, ?_, hbefore, hperm, hnodup, ?_,
      fun name => mem_changed⟩
    · obtain ⟨_, _, _, _, _, -, -, hdigest⟩ := hp.opened
      rw [hbefore]
      exact hdigest
    · obtain ⟨names, hnames, hlength, hmem⟩ := hp.sound.committed
      rw [hchanged, ← hlength]
      refine ((List.perm_ext_iff_of_nodup hnodup hnames).mpr fun name => ?_).length_eq
      rw [hmem, hp.confirmed]
  · obtain ⟨last, hlast, hdigest⟩ := hcompleted.lastRead
    refine ⟨l.mutated, last, hafter.reads ▸ hlast, fun name => ?_, source, hdigest, hsource⟩
    rw [hp.mutated, hperm.mem_iff, List.mem_map]
    constructor
    · exact fun hmem => ⟨name, hmem, rfl⟩
    · rintro ⟨other, hmem, heq⟩
      exact wireName_inj heq ▸ hmem

theorem Sound.recoverable {l : Log} {h : List Event} {error : Failure}
    (hl : Sound expected «local» l) (hafter : AfterRelease l h)
    (hcommitted : error.committedContainers = l.committed)
    (hrecovery : error.recoveryRequired = l.mutationAttempted) :
    Recoverable «local» error h where
  recovery hmutations := by
    rw [hafter.mutations] at hmutations
    rw [hrecovery]
    exact hl.attempted hmutations
  committed := by
    obtain ⟨names, hnodup, hlength, hmem⟩ := hl.committed
    exact ⟨names, hnodup, hlength.trans hcommitted.symm, fun name =>
      (hmem name).trans (hafter.confirmed name).symm⟩

/-- What an upload returns agrees with what it did. -/
theorem upload_accounts (scope : Scope) (ops : Operations σ) («local» : State) (expected : String)
    (env : Ambient σ) (limits : Limits) (world : σ) :
    Ends (upload scope ops.recorded «local» expected (recordedEnv env) limits (world, []))
      (fun receipt s => Accounted «local» expected receipt s.2)
      (fun error s => Recoverable «local» error s.2) := by
  refine (upload_logged «local» expected scope ops env limits (world, []) rfl).mono ?_ ?_
  · rintro receipt s ⟨source, l, hsource, hreported, hafter⟩
    cases hreported with
    | receipt receipt hcompleted hbefore hchanged =>
      exact hcompleted.accounted hsource hafter hbefore hchanged
  · rintro error s ⟨source, l, hreported, hafter⟩
    cases hreported with
    | failure error hsound hcommitted hrecovery =>
      exact hsound.recoverable hafter hcommitted hrecovery

end

/-! ## A cancelled upload

The renewal after the readback counts only if the check that closes it passes as well. -/

/-- A server that keeps the cloud in memory, for containers without blobs. -/
structure Memory where
  cloud : State := {}
  renewals : Nat := 0

def memoryLease : LeaseReply := ⟨200, "owner", 1000000⟩

def containerName (wire : String) : String :=
  String.ofList (wire.toList.take (wire.length - ",savedgame".length))

def memoryOps (scope : Scope) : Operations Memory where
  scope
  acquire _ := return memoryLease
  renew _ := do
    modify fun m => { m with renewals := m.renewals + 1 }
    return memoryLease
  release _ := return 204
  uploadAtom _ _ := throw (.new .unsupported)
  putContainer name displayName modified _ _ := do
    modify fun m => { m with cloud.containers :=
      m.cloud.containers.insert (containerName name) { displayName, modified, blobs := ∅ } }
    return 201
  deleteContainer name _ := do
    modify fun m => { m with cloud.containers := m.cloud.containers.erase (containerName name) }
    return 204
  remote _ _ := return (← get).cloud

/-- The upload is cancelled as soon as the lease was renewed this often. -/
def cancelledAt (renewals : Nat) : Ambient Memory where
  cancelled m := (renewals.ble m.renewals, m)
  now m := (0, m)
  assertLocal := return

def oneContainer : State where
  containers := (∅ : TextMap Container).insert "a" { displayName := "a", modified := 0, blobs := ∅ }

/-- The content digest of the empty state. -/
def emptyDigest : String := "202ef3c6cc4f7bbbc36714d224bc58bf1602e076608f18474e4c3babb042ab9c"

section

local instance : Sha256 := standardSha256

/-- Cancelled when the server has confirmed the lease after the readback of the only container. -/
def cancelledUpload : EStateM.Result Failure (Memory × List Event) Receipt :=
  upload ⟨"1", "2", "3", 4⟩ (memoryOps ⟨"1", "2", "3", 4⟩).recorded oneContainer emptyDigest
    (recordedEnv (cancelledAt 5)) {} ({}, [])

/-- The forced readback of the container matched and the lease was then reconfirmed. -/
def Reconfirmed («local» : State) (name : String) (h : List Event) : Prop :=
  ∃ newer older, h = newer ++ older ∧ Confirms «local» older name

theorem cancelledUpload_reconfirmed : Reconfirmed oneContainer "a" (history cancelledUpload) := by
  have hrelease : (history cancelledUpload).take 1 = [.release (.ok 204)] := by decide +kernel
  have hrenew : ((history cancelledUpload).drop 1).head? = some (.renew (.ok memoryLease)) := by
    decide +kernel
  obtain ⟨older, holder⟩ := List.head?_eq_some_iff.mp hrenew
  have hdrop : older = (history cancelledUpload).drop 2 := by
    rw [show 2 = 1 + 1 from rfl, ← List.drop_drop, holder]
    rfl
  have hacquired : .acquire (.ok memoryLease) ∈ older := by
    rw [hdrop]
    decide +kernel
  have hmutated : wireName "a" ∈ mutations older := by
    rw [hdrop]
    decide +kernel
  have hlast : lastCall older = some (.remote (textSet "a") (.ok oneContainer)) := by
    rw [hdrop]
    decide +kernel
  have hgranted : memoryLease.Granted := ⟨Or.inl rfl, by decide +kernel⟩
  obtain ⟨digest, hdigest⟩ : ∃ digest, entryDigest "a" oneContainer.containers["a"]? = .ok digest :=
    exists_eq_ok (by decide +kernel)
  refine ⟨[.release (.ok 204)], .renew (.ok memoryLease) :: older, ?_, memoryLease, older,
    oneContainer, digest, rfl, hgranted, rfl, ⟨memoryLease, hacquired, hgranted, rfl⟩, hmutated,
    hlast, hdigest, hdigest⟩
  rw [← holder, ← hrelease, List.take_append_drop]

/-- The failure does not count the container that was read back and reconfirmed. -/
theorem cancelledUpload_miscounts :
    ¬ ∀ error s, cancelledUpload = .error error s →
      ∃ names : List String, names.Nodup ∧ names.length = error.committedContainers ∧
        ∀ name, name ∈ names ↔ Reconfirmed oneContainer name s.2 := by
  intro hclaim
  have hcount : (match cancelledUpload with
      | .ok _ _ => none
      | .error error _ => some error.committedContainers) = some 0 := by decide +kernel
  have hreconfirmed := cancelledUpload_reconfirmed
  cases hrun : cancelledUpload with
  | ok receipt s =>
    rw [hrun] at hcount
    cases hcount
  | error error s =>
    rw [hrun] at hcount hreconfirmed
    obtain ⟨names, -, hlength, hnames⟩ := hclaim error s hrun
    rw [Option.some.inj hcount] at hlength
    have hmem := (hnames "a").mpr hreconfirmed
    rw [List.length_eq_zero_iff.mp hlength] at hmem
    cases hmem

end

end Flightdeck.Cloud.Write
