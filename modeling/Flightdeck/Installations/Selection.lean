import Flightdeck.Installations.Identity
import Flightdeck.Installations.Redo

/-!
# The selection

Which installation is selected is stored in the registry and in `config.json`, and cached by the
launcher.  Every operation but the removal of an installation keeps the places in step.
-/

namespace Flightdeck.Installations

open Foundation

section

variable [Sha256]

/-! ## More operations -/

def STALE := "Dieser Vorgang ist nicht mehr aktuell."

/-- `Launcher::activate`; `current` is whether its reservation still stands. -/
def activate (host : Host) (s : State) (path : String) (current : Except Error Unit) :
    Except Error Change := do
  let root ← host.validate path
  current
  let game ← host.forRuntime root
  let known := insertKnown s.known game.id root
  let item := Installation.new game (.xbox root)
  let registry := { s.installations.put item with selected := some item.id }
  return {
    state := { installations := registry, steam := none, runtime := some root, known }
    legacy := some { runtimePath := some root, runtimes := known } }

omit [Sha256] in
/-- The end of `maintenance::uninstall`: the files of the runtime are moved away, and the next
runtime that is known is the one in use.  `moved` is how the moves end. -/
def uninstall (s : State) (moved : Except Error Unit) (fault : Fault) : Durable State := do
  require s.steam.isNone (Error.invalid STALE)
  let some root := s.runtime | throw (.error (.invalid STALE))
  let known := s.known.filter (·.2 != root)
  let selected := (known.head?).map Prod.snd
  moved
  perform fault .io (modify fun disk =>
    { disk with config := some (.value { runtimePath := selected, runtimes := known }) })
  return { s with runtime := selected, known }

/-- The launcher between two operations. -/
structure Launcher where
  disk : Disk
  state : State

inductive Operation where
  | call (host : Host) (faults : Faults) (request : Request)
  | activate (host : Host) (faults : Faults) (path : String) (current : Except Error Unit)
  | uninstall (moved : Except Error Unit) (fault : Fault)
  | restart (host : Host) (faults : Faults)

def Launcher.complete (l : Launcher) : Operation → EStateM.Result (Stop Error) Disk State
  | .call host faults request => handle host faults l.state request l.disk
  | .activate host faults path current =>
    (liftM (activate host l.state path current) >>= store faults : Durable State) l.disk
  | .uninstall moved fault => uninstall l.state moved fault l.disk
  | .restart host faults => start host faults l.disk

/-! ## The property -/

/-- The entry that a start takes for the selected Steam installation. -/
def Registry.steam (registry : Registry) : Option Installation :=
  registry.entries.find? fun item => some item.id == registry.selected && item.steam

/-- The runtime that `config.json` names. -/
def configured (disk : Disk) : Option Path :=
  (readDocument Legacy.pretty configLimit disk.config).toOption.bind Legacy.runtimePath

/-- `selected` of the registry names what is selected. -/
def Agrees (registry : Registry) (steam : Option Installation) (runtime : Option Path) : Prop :=
  match steam, runtime with
  | some item, _ => registry.selected = some item.id
  | none, some path => ∃ e ∈ registry.entries, registry.selected = some e.id ∧ e.at path = true
  | none, none => ∀ e ∈ registry.entries, registry.selected = some e.id → e.steam = true

structure Selects (l : Launcher) : Prop where
  memory : Agrees l.state.installations l.state.steam l.state.runtime
  disk : ∃ registry, load l.disk = .ok registry l.disk ∧
    Agrees registry registry.steam (configured l.disk)
  /-- as long as the runtime in use is there, a restart selects what was selected -/
  restart : ∀ host faults s disk, (∀ path, l.state.runtime = some path → host.validate path = .ok path) →
    start host faults l.disk = .ok s disk →
      s.installations.selected = l.state.installations.selected ∧ s.steam = l.state.steam ∧
        s.runtime = l.state.runtime

/-! ## Its condition -/

/-- An entry that makes room for another one with its id is of the same source, or both are of
Steam. -/
def Replaces (registry : Registry) (item : Installation) : Prop :=
  ∀ e ∈ registry.entries, e.id = item.id → e.source = item.source ∨ (e.steam ∧ item.steam)

/-- The Xbox installation at a path. -/
def Makes (host : Host) (path : String) (item : Installation) : Prop :=
  ∃ root game, host.validate path = .ok root ∧ host.forRuntime root = .ok game ∧
    item = Installation.new game (.xbox root)

/-- The installation that a request is about. -/
def Names (host : Host) (s : State) (request : Request) (item : Installation) : Prop :=
  match request with
  | .select id _ => ∃ found ∈ host.discover s.installations s.known s.runtime, found.id = id ∧
      match found.source with
      | .steam .. => item = found
      | .xbox path => Makes host path item
  | .configure path => Makes host path item
  | .register path => Makes host path item
  | _ => False

/-- What is stored is short enough to be read back. -/
def Readable (change : Change) : Prop :=
  Installations.Fits change.state.installations ∧
    ∀ legacy, change.legacy = some legacy → (documentBytes legacy.pretty).length ≤ configLimit

/-- What is stored can be read back, and the installation that is put into the registry displaces no
other one. -/
def Meets (l : Launcher) : Operation → Prop
  | .call host _ request =>
    (∀ change, prepare host l.state request = .ok change → Readable change) ∧
      ∀ item, Names host l.state request item → Replaces l.state.installations item
  | .activate host _ path current =>
    (∀ change, activate host l.state path current = .ok change → Readable change) ∧
      ∀ item, Makes host path item → Replaces l.state.installations item
  | .uninstall _ _ => False
  | .restart host faults =>
    (∀ path, l.state.runtime = some path → host.validate path = .ok path) ∧
      ∀ s disk, start host faults l.disk = .ok s disk → Installations.Fits s.installations

/-- A launcher that was started on an empty state directory, and the operations it completed. -/
inductive Runs (meets : Launcher → Operation → Prop) : Launcher → Prop where
  | start {host : Host} {faults : Faults} {s : State} {disk : Disk} :
      Installations.start host faults {} = .ok s disk → Runs meets ⟨disk, s⟩
  | step {l : Launcher} {operation : Operation} {s : State} {disk : Disk} :
      Runs meets l → meets l operation → l.complete operation = .ok s disk → Runs meets ⟨disk, s⟩

end

/-! ## The invariant -/

/-- The state directory holds what the launcher has in memory. -/
structure Stored (disk : Disk) (s : State) : Prop where
  journal : disk.journal = none
  registry : Loads disk.registry s.installations
  config : configured disk = s.runtime

structure Coherent (s : State) : Prop where
  steam : s.steam = s.installations.steam
  nodup : (s.installations.entries.map Installation.id).Nodup
  runtime : ∀ path, s.runtime = some path → ∃ e ∈ s.installations.entries, e.at path = true
  selected : s.steam = none →
    match s.runtime with
    | some path => ∃ e ∈ s.installations.entries, s.installations.selected = some e.id ∧
        e.at path = true
    | none => s.installations.selected = none

variable {registry : Registry} {item e : Installation} {s : State} {path : Path}

theorem not_steam_of_at (h : e.at path = true) : e.steam = false := by
  unfold Installation.steam
  rw [eq_of_beq h]

theorem Registry.steam_some (h : registry.steam = some e) :
    e ∈ registry.entries ∧ registry.selected = some e.id ∧ e.steam = true := by
  have htest := List.find?_some h
  rw [Bool.and_eq_true] at htest
  exact ⟨List.mem_of_find?_eq_some h, (eq_of_beq htest.1).symm, htest.2⟩

/-- An entry with the selected id is the one. -/
theorem Registry.steam_eq (hnodup : (registry.entries.map Installation.id).Nodup)
    (he : e ∈ registry.entries) (hselected : registry.selected = some e.id) :
    registry.steam = if e.steam then some e else none := by
  cases hsteam : registry.steam with
  | some found =>
    obtain ⟨hfound, hid, his⟩ := Registry.steam_some hsteam
    rw [hselected] at hid
    rw [entry_eq hnodup he hfound (Option.some.inj hid), if_pos his]
  | none =>
    have hnot := List.find?_eq_none.mp hsteam e he
    rw [hselected, beq_self_eq_true, Bool.true_and] at hnot
    rw [if_neg hnot]

theorem Coherent.agrees (h : Coherent s) : Agrees s.installations s.steam s.runtime := by
  unfold Agrees
  cases hsteam : s.steam with
  | some item =>
    rw [h.steam] at hsteam
    exact (Registry.steam_some hsteam).2.1
  | none =>
    have hselected := h.selected hsteam
    cases hruntime : s.runtime with
    | some path =>
      rw [hruntime] at hselected
      exact hselected
    | none =>
      rw [hruntime] at hselected
      intro e _ hid
      rw [hselected] at hid
      cases hid

/-! ## What is put into the registry -/

theorem mem_put : e ∈ (registry.put item).entries ↔
    (e ∈ registry.entries ∧ e.id ≠ item.id) ∨ e = item := by
  unfold Registry.put
  rw [List.mem_append, List.mem_filter, List.mem_singleton, bne_iff_ne]

theorem put_nodup (h : (registry.entries.map Installation.id).Nodup) :
    ((registry.put item).entries.map Installation.id).Nodup := by
  unfold Registry.put
  rw [List.map_append, List.nodup_append]
  refine ⟨h.sublist (List.filter_sublist.map _), List.nodup_singleton _, ?_⟩
  intro id hid id' hid' hsame
  obtain ⟨e, he, rfl⟩ := List.mem_map.mp hid
  obtain ⟨_, hne⟩ := List.mem_filter.mp he
  rw [List.map_singleton, List.mem_singleton] at hid'
  exact bne_iff_ne.mp hne (hsame.trans hid')

/-- An Xbox installation stays at its path, under its id. -/
theorem put_at (h : Replaces registry item) (he : e ∈ registry.entries) (hat : e.at path = true) :
    ∃ e' ∈ (registry.put item).entries, e'.id = e.id ∧ e'.at path = true := by
  by_cases hsame : e.id = item.id
  · refine ⟨item, mem_put.mpr (.inr rfl), hsame.symm, ?_⟩
    rcases h e he hsame with hsource | ⟨hsteam, _⟩
    · unfold Installation.at
      rw [← hsource]
      exact hat
    · rw [not_steam_of_at hat] at hsteam
      cases hsteam
  · exact ⟨e, mem_put.mpr (.inl ⟨he, hsame⟩), rfl, hat⟩

/-! ## Changes -/

/-- An Xbox installation is selected. -/
theorem Coherent.choose (h : Coherent s) (hsource : item.source = .xbox path)
    {known : List (String × Path)} :
    Coherent {
      installations := { s.installations.put item with selected := some item.id }
      steam := none
      runtime := some path
      known } := by
  have hmem : item ∈ (s.installations.put item).entries := mem_put.mpr (.inr rfl)
  have hat : item.at path = true := beq_iff_eq.mpr hsource
  constructor
  · have hsame : Registry.steam { s.installations.put item with selected := some item.id } =
        if item.steam then some item else none :=
      Registry.steam_eq (put_nodup h.nodup) hmem rfl
    rw [if_neg (by rw [not_steam_of_at hat]; decide)] at hsame
    exact hsame.symm
  · exact put_nodup h.nodup
  · intro path' hpath
    cases hpath
    exact ⟨_, hmem, hat⟩
  · exact fun _ => ⟨_, hmem, rfl, hat⟩

/-- A Steam installation is selected. -/
theorem Coherent.choose_steam (h : Coherent s) (hreplaces : Replaces s.installations item)
    (hsteam : item.steam = true) :
    Coherent { s with
      installations := { s.installations.put item with selected := some item.id }
      steam := some item } := by
  constructor
  · have hsame : Registry.steam { s.installations.put item with selected := some item.id } =
        if item.steam then some item else none :=
      Registry.steam_eq (put_nodup h.nodup) (mem_put.mpr (.inr rfl)) rfl
    rw [if_pos hsteam] at hsame
    exact hsame.symm
  · exact put_nodup h.nodup
  · intro path hpath
    obtain ⟨e, he, hat⟩ := h.runtime path hpath
    obtain ⟨e', he', _, hat'⟩ := put_at hreplaces he hat
    exact ⟨e', he', hat'⟩
  · nofun

/-- An Xbox installation is added beside the one in use. -/
theorem Coherent.register (h : Coherent s) (hreplaces : Replaces s.installations item)
    (hxbox : item.steam = false) (hruntime : s.runtime.isSome = true)
    {known : List (String × Path)} :
    Coherent { s with known, installations := s.installations.put item } := by
  constructor
  · change s.steam = (s.installations.put item).steam
    cases hsteam : s.steam with
    | some found =>
      obtain ⟨hfound, hid, his⟩ := Registry.steam_some (h.steam.symm.trans hsteam)
      have hother : found.id ≠ item.id := by
        intro hsame
        rcases hreplaces found hfound hsame with hsource | ⟨_, hcontra⟩
        · unfold Installation.steam at his hxbox
          rw [hsource, hxbox] at his
          cases his
        · rw [hxbox] at hcontra
          cases hcontra
      rw [Registry.steam_eq (put_nodup h.nodup) (mem_put.mpr (.inl ⟨hfound, hother⟩)) hid,
        if_pos his]
    | none =>
      cases hput : (s.installations.put item).steam with
      | none => rfl
      | some found =>
        obtain ⟨hfound, hid, his⟩ := Registry.steam_some hput
        rcases mem_put.mp hfound with ⟨hold, _⟩ | rfl
        · have hsame := Registry.steam_eq h.nodup hold hid
          rw [if_pos his, ← h.steam, hsteam] at hsame
          cases hsame
        · rw [hxbox] at his
          cases his
  · exact put_nodup h.nodup
  · intro path hpath
    obtain ⟨e, he, hat⟩ := h.runtime path hpath
    obtain ⟨e', he', _, hat'⟩ := put_at hreplaces he hat
    exact ⟨e', he', hat'⟩
  · intro hsteam
    have hselected := h.selected hsteam
    obtain ⟨path, hpath⟩ := Option.isSome_iff_exists.mp hruntime
    rw [hpath] at hselected
    obtain ⟨e, he, hid, hat⟩ := hselected
    obtain ⟨e', he', hsame, hat'⟩ := put_at hreplaces he hat
    change match s.runtime with
      | some path => ∃ e ∈ (s.installations.put item).entries,
          s.installations.selected = some e.id ∧ e.at path = true
      | none => s.installations.selected = none
    rw [hpath]
    exact ⟨e', he', hsame ▸ hid, hat'⟩

/-- The runtime in use is selected instead of a Steam installation. -/
theorem Coherent.xboxSetup (h : Coherent s) :
    Coherent { s with
      installations := { s.installations with
        selected := s.runtime.bind fun path =>
          (s.installations.entries.find? (·.at path)).map Installation.id }
      steam := none } := by
  cases hruntime : s.runtime with
  | none =>
    constructor
    · symm
      apply List.find?_eq_none.mpr
      intro e _
      simp
    · exact h.nodup
    · nofun
    · exact fun _ => rfl
  | some path =>
    obtain ⟨e, he, hat⟩ := h.runtime path hruntime
    obtain ⟨found, hfound⟩ : ∃ found, s.installations.entries.find? (·.at path) = some found :=
      Option.isSome_iff_exists.mp (List.find?_isSome.mpr ⟨e, he, hat⟩)
    have hmem := List.mem_of_find?_eq_some hfound
    have hthere : found.at path = true := by
      have htest := List.find?_some hfound
      exact htest
    rw [Option.bind_some, hfound]
    constructor
    · have hsame : Registry.steam { s.installations with selected := some found.id } =
          if found.steam then some found else none := Registry.steam_eq h.nodup hmem rfl
      rw [if_neg (by rw [not_steam_of_at hthere]; decide)] at hsame
      exact hsame.symm
    · exact h.nodup
    · intro path' hpath
      cases hpath
      exact ⟨e, he, hat⟩
    · exact fun _ => ⟨found, hmem, rfl, hthere⟩

/-! ## Operations -/

/-- The change is coherent, and so is what it stores. -/
structure Keeps (s : State) (change : Change) : Prop where
  coherent : Coherent change.state
  legacy : ∀ legacy, change.legacy = some legacy → legacy.runtimePath = change.state.runtime
  runtime : change.legacy = none → change.state.runtime = s.runtime

section

variable [Sha256] {host : Host} {change : Change}

theorem Coherent.configure (h : Coherent s) (hconfigure : configure host s path = .ok change) :
    Keeps s change := by
  unfold Installations.configure at hconfigure
  obtain ⟨root, _, hconfigure⟩ := bind_eq_ok.mp hconfigure
  obtain ⟨_, _, hconfigure⟩ := bind_eq_ok.mp hconfigure
  obtain ⟨game, _, hchange⟩ := bind_eq_ok.mp hconfigure
  cases hchange
  refine ⟨h.choose rfl, ?_, nofun⟩
  intro legacy hlegacy
  cases hlegacy
  rfl

theorem Coherent.activate (h : Coherent s) {current : Except Error Unit}
    (hactivate : activate host s path current = .ok change) : Keeps s change := by
  unfold Installations.activate at hactivate
  obtain ⟨root, _, hactivate⟩ := bind_eq_ok.mp hactivate
  obtain ⟨_, _, hactivate⟩ := bind_eq_ok.mp hactivate
  obtain ⟨game, _, hchange⟩ := bind_eq_ok.mp hactivate
  cases hchange
  refine ⟨h.choose rfl, ?_, nofun⟩
  intro legacy hlegacy
  cases hlegacy
  rfl

theorem Coherent.next_register (h : Coherent s)
    (hreplaces : ∀ item, Makes host path item → Replaces s.installations item)
    (hregister : Installations.register host s path = .ok change) : Keeps s change := by
  unfold Installations.register at hregister
  obtain ⟨root, hroot, hregister⟩ := bind_eq_ok.mp hregister
  obtain ⟨game, hgame, hregister⟩ := bind_eq_ok.mp hregister
  obtain ⟨_, _, hregister⟩ := bind_eq_ok.mp hregister
  obtain ⟨_, _, hregister⟩ := bind_eq_ok.mp hregister
  split at hregister
  · exact h.configure hregister
  · rename_i hruntime
    cases hregister
    have hsome : s.runtime.isSome = true := by
      rw [Option.isSome_iff_ne_none]
      exact fun hnone => hruntime (by rw [hnone]; rfl)
    refine ⟨h.register (hreplaces _ ⟨root, game, hroot, hgame, rfl⟩) rfl hsome, ?_, nofun⟩
    intro legacy hlegacy
    cases hlegacy
    rfl

theorem Coherent.select (h : Coherent s) {id : String} {binding : Option String}
    (hreplaces : ∀ item, Names host s (.select id binding) item → Replaces s.installations item)
    (hselect : Installations.select host s id binding = .ok change) : Keeps s change := by
  unfold Installations.select at hselect
  obtain ⟨_, _, hselect⟩ := bind_eq_ok.mp hselect
  dsimp only at hselect
  cases hfind : (host.discover s.installations s.known s.runtime).find? (·.id == id) with
  | none =>
    rw [hfind] at hselect
    cases hselect
  | some found =>
    rw [hfind] at hselect
    have hmem := List.mem_of_find?_eq_some hfind
    have hid : found.id = id := by
      have htest := List.find?_some hfind
      exact eq_of_beq htest
    obtain ⟨_, _, hselect⟩ := bind_eq_ok.mp hselect
    obtain ⟨_, _, hselect⟩ := bind_eq_ok.mp hselect
    cases hsource : found.source with
    | xbox path =>
      rw [hsource] at hselect
      exact h.configure hselect
    | steam client root library name =>
      rw [hsource] at hselect
      cases hselect
      have hnames : Names host s (.select id binding) found := by
        refine ⟨found, hmem, hid, ?_⟩
        rw [hsource]
      have hsteam : found.steam = true := by
        unfold Installation.steam
        rw [hsource]
      rw [← hid]
      refine ⟨h.choose_steam (hreplaces found hnames) hsteam, nofun, fun _ => rfl⟩

omit [Sha256] in
theorem Coherent.addRoot (h : Coherent s) {client : Option Client}
    (hadd : Installations.addRoot host s path client = .ok change) : Keeps s change := by
  unfold Installations.addRoot at hadd
  obtain ⟨root, _, hadd⟩ := bind_eq_ok.mp hadd
  cases client with
  | none => cases hadd
  | some client =>
    obtain ⟨_, _, hadd⟩ := bind_eq_ok.mp hadd
    obtain ⟨_, _, hadd⟩ := bind_eq_ok.mp hadd
    obtain ⟨_, _, hadd⟩ := bind_eq_ok.mp hadd
    cases hadd
    exact ⟨⟨h.steam, h.nodup, h.runtime, h.selected⟩, nofun, fun _ => rfl⟩

theorem Coherent.prepare (h : Coherent s) {request : Request}
    (hreplaces : ∀ item, Names host s request item → Replaces s.installations item)
    (hprepare : prepare host s request = .ok change) : Keeps s change := by
  cases request with
  | select id binding => exact h.select hreplaces hprepare
  | addRoot path client => exact h.addRoot hprepare
  | xboxSetup =>
    obtain ⟨_, _, hchange⟩ := bind_eq_ok.mp hprepare
    cases hchange
    exact ⟨h.xboxSetup, nofun, fun _ => rfl⟩
  | configure path => exact h.configure hprepare
  | register path => exact h.next_register hreplaces hprepare

end

/-! ## What is stored -/

section

variable {faults : Faults} {legacy : Legacy} {disk after : Disk}

theorem save_eq_ok (h : save faults registry disk = .ok () after) :
    validateRegistry registry = .ok () ∧
      after = { disk with registry := some (.value registry) } := by
  obtain ⟨_, _, hcheck, hwrite⟩ := run_bind_eq_ok.mp h
  obtain ⟨hvalid, rfl⟩ := check_eq_ok.mp hcheck
  obtain ⟨_, hmodify⟩ := perform_eq_ok.mp hwrite
  cases hmodify
  exact ⟨hvalid, rfl⟩

theorem commitSelection_eq_ok (h : commitSelection faults registry legacy disk = .ok () after) :
    validateRegistry registry = .ok () ∧ after.journal = none ∧
      after.registry = some (.value registry) ∧ after.config = some (.value legacy) := by
  obtain ⟨_, _, hcheck, hcommit⟩ := run_bind_eq_ok.mp h
  obtain ⟨hvalid, rfl⟩ := check_eq_ok.mp hcheck
  obtain ⟨_, now, hjournal, hrecover⟩ := run_bind_eq_ok.mp hcommit
  obtain ⟨_, hwritten⟩ := perform_eq_ok.mp hjournal
  cases hwritten
  -- the journal is replayed at once
  obtain ⟨_, _, hget, hreplay⟩ := run_bind_eq_ok.mp hrecover
  cases hget
  obtain ⟨redo, _, hread, hrest⟩ := run_bind_eq_ok.mp hreplay
  obtain ⟨hvalue, rfl⟩ := check_eq_ok.mp hread
  obtain ⟨hfile, _⟩ := readDocument_eq_ok.mp hvalue
  cases hfile
  obtain ⟨_, _, hrequire, hchecked⟩ := run_bind_eq_ok.mp hrest
  obtain ⟨_, rfl⟩ := check_eq_ok.mp hrequire
  obtain ⟨_, _, hvalidate, hwrites⟩ := run_bind_eq_ok.mp hchecked
  obtain ⟨_, rfl⟩ := check_eq_ok.mp hvalidate
  obtain ⟨_, _, hconfig, hregistry⟩ := run_bind_eq_ok.mp hwrites
  obtain ⟨_, hset⟩ := perform_eq_ok.mp hconfig
  cases hset
  obtain ⟨_, _, hregistry, hremove⟩ := run_bind_eq_ok.mp hregistry
  obtain ⟨_, hset⟩ := perform_eq_ok.mp hregistry
  cases hset
  obtain ⟨_, _, hremove, hsync⟩ := run_bind_eq_ok.mp hremove
  obtain ⟨_, hset⟩ := perform_eq_ok.mp hremove
  cases hset
  obtain ⟨_, hset⟩ := perform_eq_ok.mp hsync
  cases hset
  exact ⟨hvalid, rfl, rfl, rfl⟩

theorem Stored.store (h : Stored disk s) {change : Change} {s' : State} (hkeeps : Keeps s change)
    (hreadable : Readable change) (hstore : store faults change disk = .ok s' after) :
    s' = change.state ∧ Stored after change.state := by
  unfold Installations.store at hstore
  cases hlegacy : change.legacy with
  | some legacy =>
    rw [hlegacy] at hstore
    obtain ⟨_, _, hcommit, hreturn⟩ := run_bind_eq_ok.mp hstore
    cases hreturn
    obtain ⟨hvalid, hjournal, hregistry, hconfig⟩ := commitSelection_eq_ok hcommit
    refine ⟨rfl, hjournal, .inr ⟨hregistry, hvalid, hreadable.1⟩, ?_⟩
    unfold configured
    rw [hconfig, readDocument_value (hreadable.2 legacy hlegacy)]
    exact hkeeps.legacy legacy hlegacy
  | none =>
    rw [hlegacy] at hstore
    obtain ⟨_, _, hsave, hreturn⟩ := run_bind_eq_ok.mp hstore
    cases hreturn
    obtain ⟨hvalid, rfl⟩ := save_eq_ok hsave
    refine ⟨rfl, h.journal, .inr ⟨rfl, hvalid, hreadable.1⟩, ?_⟩
    rw [hkeeps.runtime hlegacy]
    exact h.config

theorem load_of_loads (h : Loads disk.registry registry) :
    load disk = .ok registry disk := by
  have hloaded := load_triple registry (fun now => now = disk) (fun _ hnow => hnow ▸ h) disk rfl
  cases hload : load disk with
  | error stop now =>
    rw [hload] at hloaded
    exact hloaded.elim
  | ok found now =>
    rw [hload] at hloaded
    rw [hloaded.1, hloaded.2]

end

/-! ## Restarts -/

section

variable [Sha256] {host : Host} {faults : Faults} {disk after : Disk} {s' : State}

theorem migrate_eq {known : List (String × Path)} {runtime : Option Path}
    (hselected : registry.selected = none → runtime = none) :
    ∃ added, (∀ e ∈ added, e.steam = false) ∧ (migrate host registry known runtime).1 =
      { registry with entries := registry.entries ++ added } := by
  obtain ⟨added, hadded, hxbox⟩ :=
    addMissing_eq_append host registry.entries (known.map Prod.snd ++ runtime.toList)
  refine ⟨added, hxbox, ?_⟩
  unfold migrate
  rw [hadded]
  cases hregistry : registry.selected with
  | none =>
    rw [hselected hregistry]
  | some id => rfl

omit [Sha256] in
/-- Xbox installations that are added do not change what is selected. -/
theorem Registry.steam_append {added : List Installation}
    (hxbox : ∀ e ∈ added, e.steam = false) :
    Registry.steam { registry with entries := registry.entries ++ added } = registry.steam := by
  have hnone : added.find? (fun item => some item.id == registry.selected && item.steam) =
      none := by
    apply List.find?_eq_none.mpr
    intro e he
    rw [hxbox e he, Bool.and_false]
    decide
  unfold Registry.steam
  rw [List.find?_append, hnone, Option.or_none]

omit [Sha256] in
/-- Something is selected where a runtime is in use. -/
theorem Coherent.no_runtime (h : Coherent s) (hselected : s.installations.selected = none) :
    s.runtime = none := by
  have hsteam : s.steam = none := by
    rw [h.steam]
    cases hfound : s.installations.steam with
    | none => rfl
    | some found =>
      obtain ⟨_, hid, _⟩ := Registry.steam_some hfound
      rw [hselected] at hid
      cases hid
  cases hruntime : s.runtime with
  | none => rfl
  | some path =>
    have hnamed := h.selected hsteam
    rw [hruntime] at hnamed
    obtain ⟨_, _, hid, _⟩ := hnamed
    rw [hselected] at hid
    cases hid

/-- What a restart has in memory. -/
theorem restore_eq (hconfig : configured disk = s.runtime) (h : Coherent s)
    (hthere : ∀ path, s.runtime = some path → host.validate path = .ok path) :
    let restored := (restore host disk.config s.installations).1
    restored.runtime = s.runtime ∧ restored.steam = restored.installations.steam ∧
      ∃ added, (∀ e ∈ added, e.steam = false) ∧ restored.installations =
        { s.installations with entries := s.installations.entries ++ added } := by
  intro restored
  have hruntime : restored.runtime = s.runtime := by
    change (configured disk).bind (fun path => (host.validate path).toOption) = _
    rw [hconfig]
    cases hpath : s.runtime with
    | none => rfl
    | some path =>
      rw [Option.bind_some, hthere path hpath]
      rfl
  refine ⟨hruntime, rfl, ?_⟩
  apply migrate_eq
  intro hselected
  change restored.runtime = none
  rw [hruntime]
  exact h.no_runtime hselected

theorem restart_eq_ok (hstored : Stored disk s) (h : Coherent s)
    (hthere : ∀ path, s.runtime = some path → host.validate path = .ok path)
    (hstart : start host faults disk = .ok s' after) :
    Coherent s' ∧ s'.installations.selected = s.installations.selected ∧ s'.steam = s.steam ∧
      s'.runtime = s.runtime ∧ (Installations.Fits s'.installations → Stored after s') := by
  have hread : readState host faults disk =
      .ok (restore host disk.config s.installations) disk := by
    have hrecover : recover faults disk = .ok () disk := by
      unfold recover
      rw [get_bind, hstored.journal]
      rfl
    unfold readState
    rw [run_bind hrecover, get_bind, run_bind (load_of_loads hstored.registry)]
    rfl
  obtain ⟨hruntime, hsteam, added, hxbox, hadded⟩ := restore_eq hstored.config h hthere
  have hkept : (restore host disk.config s.installations).2 = false →
      (restore host disk.config s.installations).1.installations = s.installations :=
    restore_installations
  obtain ⟨restored, now, hstate, hsave⟩ := run_bind_eq_ok.mp hstart
  rw [hread] at hstate
  cases hstate
  generalize restore host disk.config s.installations = restored at *
  obtain ⟨state, migrated⟩ := restored
  dsimp only at hruntime hsteam hadded hkept hsave
  have hsame : state.steam = s.steam := by
    rw [hsteam, hadded, Registry.steam_append hxbox, h.steam]
  -- a start that saves its registry checks it, and one that does not adds nothing
  have hends : s' = state ∧ (state.installations.entries.map Installation.id).Nodup ∧
      (Installations.Fits state.installations → Stored after state) := by
    cases migrated with
    | true =>
      obtain ⟨_, _, hwritten, hreturn⟩ := run_bind_eq_ok.mp hsave
      cases hreturn
      obtain ⟨hvalid, rfl⟩ := save_eq_ok hwritten
      refine ⟨rfl, validateRegistry_nodup hvalid, fun hfits => ?_⟩
      exact ⟨hstored.journal, .inr ⟨rfl, hvalid, hfits⟩, hstored.config.trans hruntime.symm⟩
    | false =>
      cases hsave
      have hunchanged := hkept rfl
      refine ⟨rfl, ?_, fun _ => ?_⟩
      · rw [hunchanged]
        exact h.nodup
      · refine ⟨hstored.journal, ?_, hstored.config.trans hruntime.symm⟩
        rw [hunchanged]
        exact hstored.registry
  obtain ⟨rfl, hnodup, hnow⟩ := hends
  have hmem : ∀ {e}, e ∈ s.installations.entries → e ∈ s'.installations.entries := by
    intro e he
    rw [hadded]
    exact List.mem_append_left _ he
  refine ⟨⟨hsteam, hnodup, ?_, ?_⟩, by rw [hadded], hsame, hruntime, hnow⟩
  · intro path hpath
    obtain ⟨e, he, hat⟩ := h.runtime path (hruntime ▸ hpath)
    exact ⟨e, hmem he, hat⟩
  · intro hnone
    have hselected := h.selected (hsame ▸ hnone)
    have hid : s'.installations.selected = s.installations.selected := by rw [hadded]
    rw [hruntime, hid]
    cases hpath : s.runtime with
    | none =>
      rw [hpath] at hselected
      exact hselected
    | some path =>
      rw [hpath] at hselected
      obtain ⟨e, he, hselects, hat⟩ := hselected
      exact ⟨e, hmem he, hselects, hat⟩

/-! ## Runs -/

/-- The invariant: the memory is coherent and the state directory holds it. -/
structure InStep (l : Launcher) : Prop where
  coherent : Coherent l.state
  stored : Stored l.disk l.state

omit [Sha256] in
theorem inStep_empty : InStep ⟨{}, empty⟩ := by
  constructor
  · exact ⟨rfl, List.nodup_nil, nofun, fun _ => rfl⟩
  · exact ⟨rfl, .inl ⟨rfl, rfl⟩, rfl⟩

theorem InStep.next {l : Launcher} (h : InStep l) {operation : Operation}
    (hmeets : Meets l operation) (hdone : l.complete operation = .ok s' after) :
    InStep ⟨after, s'⟩ := by
  cases operation with
  | call host faults request =>
    obtain ⟨change, _, hcheck, hstore⟩ := run_bind_eq_ok.mp hdone
    obtain ⟨hprepare, rfl⟩ := check_eq_ok.mp hcheck
    have hkeeps := h.coherent.prepare hmeets.2 hprepare
    obtain ⟨rfl, hstored⟩ := h.stored.store hkeeps (hmeets.1 change hprepare) hstore
    exact ⟨hkeeps.coherent, hstored⟩
  | activate host faults path current =>
    obtain ⟨change, _, hcheck, hstore⟩ := run_bind_eq_ok.mp hdone
    obtain ⟨hprepare, rfl⟩ := check_eq_ok.mp hcheck
    have hkeeps := h.coherent.activate hprepare
    obtain ⟨rfl, hstored⟩ := h.stored.store hkeeps (hmeets.1 change hprepare) hstore
    exact ⟨hkeeps.coherent, hstored⟩
  | uninstall moved fault => exact hmeets.elim
  | restart host faults =>
    obtain ⟨hcoherent, _, _, _, hstored⟩ := restart_eq_ok h.stored h.coherent hmeets.1 hdone
    exact ⟨hcoherent, hstored (hmeets.2 s' after hdone)⟩

theorem InStep.of_runs {l : Launcher} (h : Runs Meets l) : InStep l := by
  induction h with
  | start hstart =>
    cases hstart
    exact inStep_empty
  | step _ hmeets hdone ih => exact ih.next hmeets hdone

/-- As long as no installation is removed, what is selected is stored and cached alike, and a restart
selects it again. -/
theorem selection_coherent {l : Launcher} (h : Runs Meets l) : Selects l := by
  have hstep := InStep.of_runs h
  constructor
  · exact hstep.coherent.agrees
  · refine ⟨l.state.installations, load_of_loads hstep.stored.registry, ?_⟩
    rw [← hstep.coherent.steam, hstep.stored.config]
    exact hstep.coherent.agrees
  · intro host faults s disk hthere hstart
    obtain ⟨_, hselected, hsteam, hruntime, _⟩ :=
      restart_eq_ok hstep.stored hstep.coherent hthere hstart
    exact ⟨hselected, hsteam, hruntime⟩

end

/-! ## A runtime that is removed -/

section

local instance selectionSha256 : Sha256 := standardSha256

def configuring : Operation := .call plainHost calm (.configure "/runtime")

theorem runs_empty {meets : Launcher → Operation → Prop} : Runs meets ⟨{}, empty⟩ :=
  .start (show start plainHost calm {} = .ok empty {} from rfl)

/-- After the one runtime was set up and removed, the registry still selects it. -/
theorem selected_after_uninstall : ¬ ∀ l, Runs (fun _ _ => True) l → Selects l := by
  intro h
  have hruns : (match Launcher.complete ⟨{}, empty⟩ configuring with
      | .ok s disk => match Launcher.complete ⟨disk, s⟩ (.uninstall (.ok ()) .none) with
        | .ok s _ => s.steam.isNone && s.runtime.isNone && s.installations.entries.any fun e =>
            s.installations.selected == some e.id && !e.steam
        | .error _ _ => false
      | .error _ _ => false) = true := by
    decide +kernel
  cases hfirst : Launcher.complete ⟨{}, empty⟩ configuring with
  | error e disk =>
    rw [hfirst] at hruns
    cases hruns
  | ok s disk =>
    cases hsecond : Launcher.complete ⟨disk, s⟩ (.uninstall (.ok ()) .none) with
    | error e disk' =>
      rw [hfirst] at hruns
      dsimp only at hruns
      rw [hsecond] at hruns
      cases hruns
    | ok s' disk' =>
      rw [hfirst] at hruns
      dsimp only at hruns
      rw [hsecond] at hruns
      simp only [Bool.and_eq_true, Option.isNone_iff_eq_none, List.any_eq_true, beq_iff_eq,
        Bool.not_eq_true'] at hruns
      obtain ⟨⟨hsteam, hruntime⟩, e, he, hid, hxbox⟩ := hruns
      have hagrees := (h _ ((runs_empty.step trivial hfirst).step trivial hsecond)).memory
      unfold Agrees at hagrees
      rw [hsteam, hruntime] at hagrees
      have hcontra := hagrees e he hid
      rw [hxbox] at hcontra
      cases hcontra

/-- The same runtime while it is there. -/
theorem selection_coherent_configured :
    ∃ s disk, Launcher.complete ⟨{}, empty⟩ configuring = .ok s disk ∧
      s.runtime = some "/runtime" ∧ Selects ⟨disk, s⟩ := by
  have hruns : (match Launcher.complete ⟨{}, empty⟩ configuring with
      | .ok s _ => s.runtime == some "/runtime"
      | .error _ _ => false) = true := by
    decide +kernel
  cases hdone : Launcher.complete ⟨{}, empty⟩ configuring with
  | error e disk =>
    rw [hdone] at hruns
    cases hruns
  | ok s disk =>
    rw [hdone] at hruns
    refine ⟨s, disk, rfl, eq_of_beq hruns, selection_coherent ?_⟩
    apply Runs.step runs_empty _ hdone
    refine ⟨fun change hchange => ?_, fun _ _ _ he => absurd he List.not_mem_nil⟩
    have hreadable : (match prepare plainHost empty (.configure "/runtime") with
        | .ok change =>
          Decidable.decide
            ((documentBytes change.state.installations.pretty).length ≤ registryLimit) &&
            change.legacy.all fun legacy =>
              Decidable.decide ((documentBytes legacy.pretty).length ≤ configLimit)
        | .error _ => false) = true := by
      decide +kernel
    rw [hchange] at hreadable
    simp only [Bool.and_eq_true, decide_eq_true_eq, Option.all_eq_true] at hreadable
    exact hreadable

end

end Flightdeck.Installations
