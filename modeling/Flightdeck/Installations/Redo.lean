import Flightdeck.Installations.Operations

/-!
# The registry across restarts

What a restart makes of the state directory, and which registries it may come back with.
-/

namespace Flightdeck.Installations

open Foundation

/-! ## The property -/

/-- Nothing goes wrong. -/
def calm : Faults := fun _ => .none

/-- The registry that a restart obtains. -/
def restarted (disk : Disk) : Option Registry :=
  match (recover calm >>= fun _ => load) disk with
  | .ok registry _ => some registry
  | .error _ _ => none

/-- The registry is the one reported last, or one whose redo journal reached the disk later. -/
def Stands (initial registry : Registry) : List Event → Prop
  | [] => registry = initial
  | .reported latest :: _ => registry = latest
  | .journalled candidate :: older => registry = candidate ∨ Stands initial registry older

instance Stands.decidable (initial registry : Registry) :
    (history : List Event) → Decidable (Stands initial registry history)
  | [] => inferInstanceAs (Decidable (registry = initial))
  | .reported latest :: _ => inferInstanceAs (Decidable (registry = latest))
  | .journalled candidate :: older =>
    have := Stands.decidable initial registry older
    inferInstanceAs (Decidable (registry = candidate ∨ Stands initial registry older))

/-! ## What a restart reads -/

def Fits (registry : Registry) : Prop :=
  (documentBytes registry.pretty).length ≤ registryLimit

def Redo.Fits (redo : Redo) : Prop :=
  (documentBytes redo.pretty).length ≤ journalLimit ∧ Installations.Fits redo.registry

def Loads (file : Option (Document Registry)) (registry : Registry) : Prop :=
  (file = none ∧ registry = {}) ∨
    (file = some (.value registry) ∧ validateRegistry registry = .ok () ∧ Fits registry)

def Replays (file : Option (Document Redo)) (registry : Registry) : Prop :=
  ∃ redo, file = some (.value redo) ∧ redo.schema = 1 ∧
    validateRegistry redo.registry = .ok () ∧ redo.Fits ∧ redo.registry = registry

/-- A restart obtains this registry, from the journal or else from the registry file. -/
def Recovers (registry : Registry) (disk : Disk) : Prop :=
  (disk.journal = none ∧ Loads disk.registry registry) ∨ Replays disk.journal registry

/-- The journal is gone and the registry file holds this registry. -/
def Settled (registry : Registry) (disk : Disk) : Prop :=
  disk.journal = none ∧ Loads disk.registry registry

theorem Settled.recovers {registry : Registry} {disk : Disk} (h : Settled registry disk) :
    Recovers registry disk := .inl h

theorem load_triple (registry : Registry) (P : Disk → Prop)
    (hP : ∀ disk, P disk → Loads disk.registry registry) :
    Triple P load (fun loaded disk => loaded = registry ∧ P disk) fun _ _ => False := by
  apply Triple.get_bind
  intro disk hdisk
  rcases hP disk hdisk with ⟨hnone, rfl⟩ | ⟨hfile, hvalid, hfits⟩
  · rw [hnone]
    rintro _ rfl
    exact ⟨rfl, hdisk⟩
  · rw [hfile]
    change Triple _ (liftM (readDocument Registry.pretty registryLimit (some (.value registry))) >>= _)
      _ _
    rw [readDocument_value hfits, check_ok_bind, hvalid, check_ok_bind]
    rintro _ rfl
    exact ⟨rfl, hdisk⟩

theorem loads_of_load {disk after : Disk} {registry : Registry}
    (h : load disk = .ok registry after) : Loads disk.registry registry := by
  obtain ⟨_, _, hget, h⟩ := run_bind_eq_ok.mp h
  cases hget
  cases hfile : disk.registry with
  | none =>
    rw [hfile] at h
    cases h
    exact .inl ⟨rfl, rfl⟩
  | some file =>
    rw [hfile] at h
    obtain ⟨found, _, hread, hrest⟩ := run_bind_eq_ok.mp h
    obtain ⟨hvalue, rfl⟩ := check_eq_ok.mp hread
    obtain ⟨hfound, hlength⟩ := readDocument_eq_ok.mp hvalue
    obtain ⟨_, _, hvalidate, hreturn⟩ := run_bind_eq_ok.mp hrest
    obtain ⟨hvalid, rfl⟩ := check_eq_ok.mp hvalidate
    cases hreturn
    exact .inr ⟨hfound, hvalid, hlength⟩

theorem recover_triple (faults : Faults) (registry : Registry) (history : List Event) :
    Triple (fun disk => Recovers registry disk ∧ disk.history = history) (recover faults)
      (fun _ disk => Settled registry disk ∧ disk.history = history)
      fun _ disk => faults ≠ calm ∧ Recovers registry disk ∧ disk.history = history := by
  have hafter : ∀ site, faults site ≠ .none → faults ≠ calm := by
    rintro site hsite rfl
    exact hsite rfl
  have hbefore : ∀ site, (faults site).passes = false → faults ≠ calm :=
    fun site h => hafter site (Fault.ne_none_of_passes h)
  apply Triple.get_bind
  rintro disk ⟨⟨hnone, hloads⟩ | ⟨redo, hjournal, hschema, hvalid, hfits, rfl⟩, hhistory⟩
  · rw [hnone]
    rintro _ rfl
    exact ⟨⟨hnone, hloads⟩, hhistory⟩
  · rw [hjournal]
    change Triple _ (liftM (readDocument Redo.pretty journalLimit (some (.value redo))) >>= _) _ _
    rw [readDocument_value hfits.1, check_ok_bind, hschema]
    change Triple _ (liftM (validateRegistry redo.registry) >>= _) _ _
    rw [hvalid, check_ok_bind]
    -- until the journal is removed it replays the same registry, whatever was written
    have hkept : ∀ (now : Disk), now.journal = some (.value redo) ∧ now.history = history →
        Recovers redo.registry now ∧ now.history = history := fun now h =>
      ⟨.inr ⟨redo, h.1, hschema, hvalid, hfits, rfl⟩, h.2⟩
    have hsettled : ∀ now : Disk, now.journal = none ∧ now.registry = some (.value redo.registry) ∧
        now.history = history → Settled redo.registry now ∧ now.history = history :=
      fun now h => ⟨⟨h.1, .inr ⟨h.2.1, hvalid, hfits.2⟩⟩, h.2.2⟩
    have hstart : ∀ now : Disk, now = disk →
        now.journal = some (.value redo) ∧ now.history = history := by
      rintro _ rfl
      exact ⟨hjournal, hhistory⟩
    apply Triple.pre _ hstart
    refine Triple.bind (Q := fun _ now => now.journal = some (.value redo) ∧
      now.history = history) ?_ fun _ => ?_
    · apply Triple.perform
      · exact fun _ => Triple.update fun now h => h
      · exact fun hf now h => ⟨⟨hbefore _ hf, hkept now h⟩, hbefore _ hf, hkept now h⟩
      · exact fun _ hf _ now h => ⟨⟨hafter _ hf, hkept now h⟩, hafter _ hf, hkept now h⟩
    refine Triple.bind (Q := fun _ now => now.journal = some (.value redo) ∧
      now.registry = some (.value redo.registry) ∧ now.history = history) ?_ fun _ => ?_
    · apply Triple.perform
      · exact fun _ => Triple.update fun now h => ⟨h.1, rfl, h.2⟩
      · exact fun hf now h => ⟨⟨hbefore _ hf, hkept now h⟩, hbefore _ hf, hkept now h⟩
      · intro _ hf _ now h
        have hnow := hkept now ⟨h.1, h.2.2⟩
        exact ⟨⟨hafter _ hf, hnow⟩, hafter _ hf, hnow⟩
    have hended : ∀ (now : Disk), faults ≠ calm → Settled redo.registry now ∧
        now.history = history →
        faults ≠ calm ∧ Recovers redo.registry now ∧ now.history = history :=
      fun now hf h => ⟨hf, h.1.recovers, h.2⟩
    refine Triple.bind (Q := fun _ now => Settled redo.registry now ∧ now.history = history)
      ?_ fun _ => ?_
    · apply Triple.perform
      · exact fun _ => Triple.update fun now h => hsettled _ ⟨rfl, h.2⟩
      · intro hf now h
        have hnow := hkept now ⟨h.1, h.2.2⟩
        exact ⟨⟨hbefore _ hf, hnow⟩, hbefore _ hf, hnow⟩
      · exact fun _ hf _ now h => ⟨hended now (hafter _ hf) h, hended now (hafter _ hf) h⟩
    · apply Triple.perform
      · exact fun _ now h => h
      · exact fun hf now h => ⟨hended now (hbefore _ hf) h, hended now (hbefore _ hf) h⟩
      · exact fun _ hf _ now h => ⟨hended now (hafter _ hf) h, hended now (hafter _ hf) h⟩

theorem restarted_of_recovers {registry : Registry} {disk : Disk} (h : Recovers registry disk) :
    restarted disk = some registry := by
  have hrecover := recover_triple calm registry disk.history disk ⟨h, rfl⟩
  unfold restarted
  cases hrun : recover calm disk with
  | error stop now =>
    rw [hrun] at hrecover
    exact absurd rfl hrecover.1
  | ok u now =>
    rw [hrun] at hrecover
    have hload := load_triple registry (Settled registry) (fun _ h => h.2) now hrecover.1
    rw [run_bind hrun]
    cases hnow : load now with
    | error stop then' =>
      rw [hnow] at hload
      exact hload.elim
    | ok loaded then' =>
      rw [hnow] at hload
      exact congrArg some hload.1

theorem recovers_of_restarted {registry : Registry} {disk : Disk}
    (h : restarted disk = some registry) : Recovers registry disk := by
  unfold restarted at h
  split at h
  case h_2 => cases h
  case h_1 registry' after hrun =>
  cases h
  obtain ⟨_, mid, hrecover, hload⟩ := run_bind_eq_ok.mp hrun
  have hloads := loads_of_load hload
  obtain ⟨_, _, hget, hrecover⟩ := run_bind_eq_ok.mp hrecover
  cases hget
  cases hjournal : disk.journal with
  | none =>
    rw [hjournal] at hrecover
    cases hrecover
    exact .inl ⟨hjournal, hloads⟩
  | some file =>
    rw [hjournal] at hrecover
    obtain ⟨redo, _, hread, hrest⟩ := run_bind_eq_ok.mp hrecover
    obtain ⟨hvalue, rfl⟩ := check_eq_ok.mp hread
    obtain ⟨hfile, hlength⟩ := readDocument_eq_ok.mp hvalue
    obtain ⟨_, _, hrequire, hchecked⟩ := run_bind_eq_ok.mp hrest
    obtain ⟨hschema, rfl⟩ := check_eq_ok.mp hrequire
    obtain ⟨_, _, hvalidate, hwrites⟩ := run_bind_eq_ok.mp hchecked
    obtain ⟨hvalid, rfl⟩ := check_eq_ok.mp hvalidate
    -- nothing goes wrong, so the rest of the run is what it writes
    cases hwrites
    rcases hloads with ⟨hnone, -⟩ | ⟨hregistry, -, hfits⟩
    · cases hnone
    · cases hregistry
      rw [require_eq_ok, beq_iff_eq] at hschema
      exact .inr ⟨redo, hjournal.trans hfile, hschema, hvalid, ⟨hlength, hfits⟩, rfl⟩

/-! ## Operations under faults -/

section

variable [Sha256]

/-- What an operation stores can be read back. -/
def Change.Fits (change : Change) : Prop :=
  match change.legacy with
  | some legacy => Redo.Fits { registry := change.state.installations, legacy }
  | none => Installations.Fits change.state.installations

instance (change : Change) : Decidable change.Fits :=
  match h : change.legacy with
  | some legacy => decidable_of_iff
      ((documentBytes (Redo.pretty { registry := change.state.installations, legacy })).length ≤
          journalLimit ∧
        (documentBytes change.state.installations.pretty).length ≤ registryLimit)
      (by unfold Change.Fits; rw [h]; rfl)
  | none => decidable_of_iff
      ((documentBytes change.state.installations.pretty).length ≤ registryLimit)
      (by unfold Change.Fits; rw [h]; rfl)

/-- A direct save does not break off once its file is in place. -/
def SaveSafe (fault : Fault) : Prop := fault.passes = true → fault = .none

/-- The state directory comes back with a registry that stands. -/
def Sound (initial : Registry) (disk : Disk) : Prop :=
  ∃ registry, Recovers registry disk ∧ Stands initial registry disk.history

omit [Sha256] in
theorem save_triple {faults : Faults} {initial registry : Registry} (hfits : Fits registry)
    (hsafe : SaveSafe (faults .save)) :
    Triple (fun disk => Sound initial disk ∧ ((faults .save).passes = true → disk.journal = none))
      (save faults registry) (fun _ disk => Settled registry disk) fun _ => Sound initial := by
  refine Triple.bind (Q := fun _ disk => validateRegistry registry = .ok () ∧ Sound initial disk ∧
    ((faults .save).passes = true → disk.journal = none)) ?_ fun _ => ?_
  · exact Triple.check (fun _ disk h hvalid => ⟨hvalid, h⟩) fun _ disk h _ => h.1
  · apply Triple.perform
    · exact fun hpasses => Triple.update fun disk h => ⟨h.2.2 hpasses, .inr ⟨rfl, h.1, hfits⟩⟩
    · exact fun _ disk h => ⟨h.2.1, h.2.1⟩
    · exact fun hpasses hfault => absurd (hsafe hpasses) hfault

omit [Sha256] in
theorem commitSelection_triple {faults : Faults} {initial registry : Registry} {legacy : Legacy}
    (hfits : Redo.Fits { registry, legacy }) :
    Triple (Sound initial) (commitSelection faults registry legacy)
      (fun _ disk => Settled registry disk) fun _ => Sound initial := by
  refine Triple.bind (Q := fun _ disk => validateRegistry registry = .ok () ∧ Sound initial disk)
    ?_ fun _ => ?_
  · exact Triple.check (fun _ disk h hvalid => ⟨hvalid, h⟩) fun _ disk h _ => h
  -- once the journal is in place a restart obtains the new registry
  refine Triple.bind (Q := fun _ disk => ∃ older, Recovers registry disk ∧
    disk.history = .journalled registry :: older) ?_ fun _ => ?_
  · apply Triple.perform
    · rintro - disk ⟨hvalid, -⟩
      exact ⟨disk.history, .inr ⟨_, rfl, rfl, hvalid, hfits, rfl⟩, rfl⟩
    · exact fun _ disk h => ⟨h.2, h.2⟩
    · rintro - - _ disk ⟨older, hrecovers, hhistory⟩
      have hsound : Sound initial disk := ⟨registry, hrecovers, hhistory ▸ .inl rfl⟩
      exact ⟨hsound, hsound⟩
  · apply Triple.exists_pre
    intro older
    apply (recover_triple faults registry (.journalled registry :: older)).mono (fun _ h => h)
    · exact fun _ disk h => h.1
    · rintro _ disk ⟨-, hrecovers, hhistory⟩
      exact ⟨registry, hrecovers, hhistory ▸ .inl rfl⟩

/-! ## A start -/

/-- What a start adds to the registry are Xbox installations. -/
theorem addMissing_eq_append (host : Host) (entries : List Installation) (paths : List Path) :
    ∃ added, addMissing host entries paths = entries ++ added ∧
      ∀ e ∈ added, e.steam = false := by
  unfold addMissing
  induction paths generalizing entries with
  | nil => exact ⟨[], (List.append_nil entries).symm, nofun⟩
  | cons path rest ih =>
    rw [List.foldl_cons]
    cases host.forRuntime path with
    | error e => exact ih entries
    | ok game =>
      by_cases hany : entries.any (·.at path) = true
      · simp only [hany, if_true]
        exact ih entries
      · simp only [hany]
        obtain ⟨added, hadded, hxbox⟩ := ih (entries ++ [Installation.new game (.xbox path)])
        refine ⟨_, hadded.trans (List.append_assoc ..), ?_⟩
        intro e he
        rcases List.mem_cons.mp he with rfl | he
        · rfl
        · exact hxbox e he

theorem migrate_registry {host : Host} {registry : Registry} {known : List (String × Path)}
    {runtime : Option Path} (h : (migrate host registry known runtime).2 = false) :
    (migrate host registry known runtime).1 = registry := by
  obtain ⟨added, hadded, _⟩ :=
    addMissing_eq_append host registry.entries (known.map Prod.snd ++ runtime.toList)
  unfold migrate at h ⊢
  rw [hadded] at h ⊢
  split at h
  · cases h
  · have hlength : (registry.entries ++ added).length = registry.entries.length := by
      simpa using h
    rw [List.length_append, Nat.add_eq_left, List.length_eq_zero_iff] at hlength
    subst hlength
    rw [List.append_nil]

/-- A start that saves nothing keeps the registry it read. -/
theorem restore_installations {host : Host} {config : Option (Document Legacy)}
    {registry : Registry} (h : (restore host config registry).2 = false) :
    (restore host config registry).1.installations = registry := by
  unfold restore at h ⊢
  generalize (readDocument Legacy.pretty configLimit config).toOption = legacy at h ⊢
  exact migrate_registry h

theorem readState_triple (host : Host) (faults : Faults) (initial : Registry) :
    Triple (Sound initial) (readState host faults)
      (fun read disk => Sound initial disk ∧ disk.journal = none ∧
        (read.2 = false → Settled read.1.installations disk))
      fun _ => Sound initial := by
  rintro disk ⟨registry, hrecovers, hstands⟩
  have hsound : ∀ now : Disk, Recovers registry now ∧ now.history = disk.history →
      Sound initial now := fun now h => ⟨registry, h.1, h.2 ▸ hstands⟩
  refine Triple.bind (P := (· = disk)) (Q := fun _ now => Settled registry now ∧
    now.history = disk.history) ?_ (fun _ => ?_) disk rfl
  · apply (recover_triple faults registry disk.history).mono
    · rintro _ rfl
      exact ⟨hrecovers, rfl⟩
    · exact fun _ _ h => h
    · exact fun _ now h => hsound now h.2
  apply Triple.get_bind
  rintro now ⟨hsettled, hhistory⟩
  refine Triple.bind (Q := fun loaded then' => loaded = registry ∧ then' = now) ?_ fun loaded => ?_
  · apply (load_triple registry (· = now) _).mono (fun _ h => h) (fun _ _ h => h)
    · exact fun _ _ h => h.elim
    · rintro _ rfl
      exact hsettled.2
  · rintro then' ⟨rfl, rfl⟩
    refine ⟨hsound then' ⟨hsettled.recovers, hhistory⟩, hsettled.1, fun h => ?_⟩
    rw [restore_installations h]
    exact hsettled

/-- A start migrates the registry, and so saves it. -/
def migrates (host : Host) (faults : Faults) (disk : Disk) : Bool :=
  match readState host faults disk with
  | .ok (_, migrated) _ => migrated
  | .error _ _ => false

theorem start_triple {host : Host} {faults : Faults} {initial : Registry} {before : Disk}
    (hsafe : SaveSafe (faults .save))
    (hfits : ∀ state disk, readState host faults before = .ok (state, true) disk →
      Fits state.installations) :
    Triple (fun disk => disk = before ∧ Sound initial disk) (start host faults)
      (fun state disk =>
        if migrates host faults before then Settled state.installations disk
        else Sound initial disk)
      fun _ => Sound initial := by
  refine ((readState_triple host faults initial).known before).bind fun (state, migrated) => ?_
  intro disk ⟨hread, hsound, hjournal, _⟩
  have hmigrates : migrates host faults before = migrated := by
    unfold migrates
    rw [hread]
  rw [hmigrates]
  cases migrated with
  | false => exact hsound
  | true =>
    have hsave : Triple _ (save faults state.installations) _ (fun _ => Sound initial) :=
      save_triple (hfits state disk hread) hsafe
    have hreturn : ∀ u : Unit, Triple (Settled state.installations)
        (pure state : Durable State) (fun state now => Settled state.installations now)
        fun _ => Sound initial := fun _ now h => h
    exact (hsave.bind hreturn) disk ⟨hsound, fun _ => hjournal⟩

/-! ## Runs -/

theorem handle_triple {host : Host} {faults : Faults} {initial : Registry} {s : State}
    {request : Request} {before : Disk}
    (hsafe : ∀ change, prepare host s request = .ok change → change.Fits ∧
      (change.legacy = none → SaveSafe (faults .save) ∧
        ((faults .save).passes = true → before.journal = none))) :
    Triple (fun disk => disk = before ∧ Sound initial disk) (handle host faults s request)
      (fun state disk => Settled state.installations disk) fun _ => Sound initial := by
  refine Triple.bind (Q := fun change disk => prepare host s request = .ok change ∧
    disk = before ∧ Sound initial disk) ?_ fun change => ?_
  · exact Triple.check (fun change disk h hprepare => ⟨hprepare, h⟩) fun _ disk h _ => h.2
  rintro disk ⟨hprepare, rfl, hsound⟩
  obtain ⟨hfits, hdirect⟩ := hsafe change hprepare
  have hreturn : ∀ u : Unit, Triple (Settled change.state.installations)
      (pure change.state : Durable State) (fun state now => Settled state.installations now)
      fun _ => Sound initial := fun _ now h => h
  unfold Change.Fits at hfits
  unfold store
  cases hlegacy : change.legacy with
  | some legacy =>
    rw [hlegacy] at hfits
    exact ((commitSelection_triple hfits).bind hreturn) disk hsound
  | none =>
    rw [hlegacy] at hfits
    obtain ⟨hsave, hjournal⟩ := hdirect hlegacy
    exact ((save_triple hfits hsave).bind hreturn) disk ⟨hsound, hjournal⟩

/-- The state directory, and the memory of the launcher while it runs. -/
structure System where
  disk : Disk
  state : Option State

/-- A restart of the launcher, or a call to one that runs. -/
inductive Step where
  | start (host : Host) (faults : Faults)
  | call (host : Host) (faults : Faults) (request : Request)

/-- What is left of a run: a success is reported where a registry was saved, an error keeps the
launcher as it was, and a crash ends it. -/
def System.after (saved : Bool) (before : Option State) :
    EStateM.Result (Stop Error) Disk State → System
  | .ok state disk =>
    { disk := if saved then
        { disk with history := .reported state.installations :: disk.history } else disk
      state := some state }
  | .error (.error _) disk => { disk, state := before }
  | .error .crash disk => { disk, state := none }

def System.next (system : System) : Step → System
  | .start host faults =>
    .after (migrates host faults system.disk) none (start host faults system.disk)
  | .call host faults request =>
    match system.state with
    | none => system
    | some s => .after true system.state (handle host faults s request system.disk)

def System.run (system : System) (steps : List Step) : System := steps.foldl System.next system

/-- What is stored is short enough to be read back, no direct save breaks off once its file is in
place, and none succeeds beside the redo journal of a commit that failed. -/
def Step.Safe (system : System) : Step → Prop
  | .start host faults =>
    SaveSafe (faults .save) ∧
      ∀ state disk, readState host faults system.disk = .ok (state, true) disk →
        Fits state.installations
  | .call host faults request =>
    ∀ s change, system.state = some s → prepare host s request = .ok change →
      change.Fits ∧ (change.legacy = none → SaveSafe (faults .save) ∧
        ((faults .save).passes = true → system.disk.journal = none))

def AllSafe (system : System) : List Step → Prop
  | [] => True
  | step :: steps => step.Safe system ∧ AllSafe (system.next step) steps

omit [Sha256] in
theorem sound_after {initial : Registry} {saved : Bool} {before : Option State}
    {r : EStateM.Result (Stop Error) Disk State}
    (h : Ends r
      (fun state disk => if saved then Settled state.installations disk else Sound initial disk)
      fun _ => Sound initial) :
    Sound initial (System.after saved before r).disk := by
  match r, h with
  | .ok state disk, h =>
    cases saved with
    | false => exact h
    | true => exact ⟨state.installations, h.recovers, rfl⟩
  | .error (.error _) disk, h => exact h
  | .error .crash disk, h => exact h

theorem sound_next {initial : Registry} {system : System} {step : Step}
    (hsafe : step.Safe system) (h : Sound initial system.disk) :
    Sound initial (system.next step).disk := by
  cases step with
  | start host faults => exact sound_after (start_triple hsafe.1 hsafe.2 _ ⟨rfl, h⟩)
  | call host faults request =>
    unfold System.next
    cases hs : system.state with
    | none => exact h
    | some s => exact sound_after (handle_triple (hsafe s · hs) _ ⟨rfl, h⟩)

theorem sound_run {initial : Registry} {steps : List Step} {system : System}
    (hsafe : AllSafe system steps) (h : Sound initial system.disk) :
    Sound initial (system.run steps).disk := by
  induction steps generalizing system with
  | nil => exact h
  | cons step steps ih => exact ih hsafe.2 (sound_next hsafe.1 h)

/-- A restart after any such run obtains the registry reported last, or one that a later commit
put into the redo journal before it failed. -/
theorem restarted_stands {system : System} {initial : Registry} {steps : List Step}
    (hdisk : restarted system.disk = some initial) (hhistory : system.disk.history = [])
    (hsafe : AllSafe system steps) :
    ∃ registry, restarted (system.run steps).disk = some registry ∧
      Stands initial registry (system.run steps).disk.history := by
  have hsound : Sound initial system.disk := by
    refine ⟨initial, recovers_of_restarted hdisk, ?_⟩
    rw [hhistory]
    rfl
  obtain ⟨registry, hrecovers, hstands⟩ := sound_run hsafe hsound
  exact ⟨registry, restarted_of_recovers hrecovers, hstands⟩

end

/-! ## Two runs -/

section

local instance : Sha256 := standardSha256

/-- A host on which every path is a prepared runtime and every folder a Steam client. -/
def plainHost : Host where
  validate := .ok
  forRuntime _ := .ok .msfs2024
  ready _ := true
  «open» := .ok ()
  idle := .ok ()
  discover registry _ _ := registry.entries
  context := Installation.id
  check _ := .ok ()
  steamRoot := .ok
  clientBinding _ _ := .ok ()

/-- The write of `config.json` fails. -/
def configFails : Faults := fun site => if site = .config then .fails false else .none

def fresh : System where
  disk := {}
  state := none

def setupFailed : List Step :=
  [.start plainHost calm, .call plainHost configFails (.configure "/runtime")]

def rootAdded : List Step :=
  setupFailed ++ [.call plainHost calm (.addRoot "/steam" (some .native))]

/-- A setup that fails leaves its journal; a restart then comes back with the new registry. -/
theorem restarted_stands_setupFailed :
    ∃ registry, restarted (fresh.run setupFailed).disk = some registry ∧
      Stands {} registry (fresh.run setupFailed).disk.history := by
  apply restarted_stands (by rfl) rfl
  refine ⟨⟨fun _ => rfl, ?_⟩, ?_, trivial⟩
  · intro state disk h
    have hmigrates : migrates plainHost calm fresh.disk = true := by
      unfold migrates
      rw [h]
    exact absurd hmigrates (by decide +kernel)
  · intro s change hs hprepare
    have hall : (match (fresh.next (.start plainHost calm)).state with
        | some s => match prepare plainHost s (.configure "/runtime") with
          | .ok change => Decidable.decide (change.Fits ∧ change.legacy.isSome)
          | .error _ => false
        | none => false) = true := by
      decide +kernel
    rw [hs] at hall
    simp only [hprepare, decide_eq_true_eq] at hall
    refine ⟨hall.1, fun hnone => ?_⟩
    rw [hnone] at hall
    cases hall.2

/-- The journal of a failed setup undoes the Steam folder that was saved after it. -/
theorem registry_goes_back :
    ∃ registry, restarted (fresh.run rootAdded).disk = some registry ∧
      ¬ Stands {} registry (fresh.run rootAdded).disk.history := by
  have h : ((restarted (fresh.run rootAdded).disk).any fun registry =>
      !Decidable.decide (Stands {} registry (fresh.run rootAdded).disk.history)) = true := by
    decide +kernel
  cases hregistry : restarted (fresh.run rootAdded).disk with
  | none =>
    rw [hregistry] at h
    cases h
  | some registry =>
    rw [hregistry] at h
    refine ⟨registry, rfl, ?_⟩
    simpa using h

end

end Flightdeck.Installations
