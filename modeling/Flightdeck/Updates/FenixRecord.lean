import Flightdeck.Foundation.Outcome
import Flightdeck.Updates.Fenix

/-!
# What the release record says of the installed patch

An installation writes the record before it calls the patch program.  While every patch program that
is called after a record was written succeeds, and nothing but the bundled patch is removed, the
record names the bundle that is installed.
-/

namespace Flightdeck.Updates.Fenix

open Foundation

variable (bundled : Bundled)

/-! ## What the record says -/

/-- The bundle from which the installed patch was made, and the bundled one if none is installed. -/
def made (s : State) : Manifest := s.patch.getD bundled.bundle

/-- The patch program and the update check work with the installed version. -/
structure Described (s : State) : Prop where
  engine : engine bundled s = .ok (made bundled s)
  current : current bundled s = .ok (made bundled s).version

/-- `recorded` reads a file of this record back. -/
def Fits (record : Record) : Prop :=
  (documentBytes (record.text)).length ≤ 2 * 1024 * 1024

/-- The record that an installation writes, if its job gets that far. -/
def written (course : Course) (s : State) : Option Record :=
  match prepare bundled course s with
  | .ok record => if course.write.passes then some record else none
  | .error _ => none

/-- An installation that writes its record also installs the patch, unless the record is about the
bundle that is installed already; and only the bundled patch is removed. -/
def Careful (s : State) : Operation → Prop
  | .install course => ∀ record, written bundled course s = some record → Fits record ∧
      (course.write = .none ∧ course.patch = .ok () ∨ record.bundleManifest = made bundled s)
  | .restore course =>
      course.prepared = .ok () → course.patch = .ok () → made bundled s = bundled.bundle
  | _ => True

/-! ## Records that are read back -/

variable {bundled}

theorem sound_of_names {mine embedded : Checksums} (hembedded : sound embedded = true)
    (hnames : names mine = names embedded) (hhex : (mine.all fun row => hexDigest row.2) = true) :
    sound mine = true := by
  have hlength : mine.length = embedded.length := by
    have h := congrArg List.length hnames
    rwa [names, names, List.length_map, List.length_map] at h
  unfold sound at hembedded ⊢
  rw [Bool.and_eq_true, Bool.and_eq_true] at hembedded ⊢
  obtain ⟨⟨hempty, hmany⟩, hall⟩ := hembedded
  refine ⟨⟨?_, ?_⟩, ?_⟩
  · rw [Bool.not_eq_true', List.isEmpty_eq_false_iff, ← List.length_pos_iff] at hempty ⊢
    omega
  · rwa [hlength]
  · rw [List.all_eq_true] at hall hhex ⊢
    intro row hrow
    have hname : row.1 ∈ names embedded := by
      rw [← hnames]
      exact List.mem_map_of_mem hrow
    obtain ⟨row', hrow', hsame⟩ := List.mem_map.mp hname
    have hrelative := (Bool.and_eq_true _ _ ▸ hall row' hrow').1
    rw [Bool.and_eq_true, ← hsame]
    exact ⟨hrelative, hhex row hrow⟩

/-- A manifest that may be installed passes the check of an installed one. -/
theorem installedManifest_of_compatible {policy : Except Error Unit} {lock : Manifest}
    (h : compatibleManifest bundled policy lock = .ok ()) (release : Release) :
    installedManifest ⟨lock.version, lock, release⟩ = .ok lock := by
  obtain ⟨_, hformat, h⟩ := bind_eq_ok.mp h
  obtain ⟨number, hversion, h⟩ := bind_eq_ok.mp h
  obtain ⟨_, hrunner, h⟩ := bind_eq_ok.mp h
  obtain ⟨_, hmaps, _⟩ := bind_eq_ok.mp h
  have hknown := bundled.checked
  rw [Manifest.checked, List.all_cons, List.all_cons, List.all_cons, List.all_cons, List.all_nil,
    Bool.and_true, Bool.and_eq_true, Bool.and_eq_true, Bool.and_eq_true] at hknown
  obtain ⟨hfiles, hrunnerFiles, hprefix, hintegration⟩ := hknown
  have hmap : ∀ row ∈ [(lock.files, bundled.bundle.files),
      (lock.integration, bundled.bundle.integration),
      (lock.prefixFiles, bundled.bundle.prefixFiles)],
      sound row.2 = true → sound row.1 = true := by
    intro row hmem hembedded
    obtain ⟨_, hnames, hhex⟩ := bind_eq_ok.mp ((forM_eq_ok _).mp hmaps row hmem)
    exact sound_of_names hembedded (eq_of_beq (require_eq_ok.mp hnames)) (require_eq_ok.mp hhex)
  have hsame : lock.runnerFiles = bundled.bundle.runnerFiles :=
    eq_of_beq ((Bool.and_eq_true _ _ ▸ require_eq_ok.mp hrunner).1)
  have hsound : lock.checked.all sound = true := by
    rw [Manifest.checked, List.all_cons, List.all_cons, List.all_cons, List.all_cons, List.all_nil,
      hmap (lock.files, _) (by simp) hfiles, hmap (lock.prefixFiles, _) (by simp) hprefix,
      hmap (lock.integration, _) (by simp) hintegration, hsame, hrunnerFiles]
    rfl
  change (require _ _ >>= fun _ => require _ _ >>= fun _ => version lock.version >>= fun _ =>
    require (lock.checked.all sound) _ >>= fun _ => pure lock) = .ok lock
  rw [hformat, hversion, hsound, beq_self_eq_true]
  rfl

/-- Every record that is written is about one bundle, which passes the check when it is read. -/
theorem prepare_eq_ok {course : Course} {s : State} {record : Record}
    (h : prepare bundled course s = .ok record) :
    record.version = record.bundleManifest.version ∧
      installedManifest record = .ok record.bundleManifest := by
  obtain ⟨_, _, h⟩ := bind_eq_ok.mp h
  obtain ⟨chosen, _, h⟩ := bind_eq_ok.mp h
  obtain ⟨obtained, _, h⟩ := bind_eq_ok.mp h
  obtain ⟨_, _, h⟩ := bind_eq_ok.mp h
  obtain ⟨_, hcompatible, h⟩ := bind_eq_ok.mp h
  obtain ⟨_, _, h⟩ := bind_eq_ok.mp h
  cases h
  exact ⟨rfl, installedManifest_of_compatible hcompatible chosen.release⟩

theorem recorded_file {s : State} {record : Record} (hfile : s.file = some (.value record))
    (hchecked : installedManifest record = .ok record.bundleManifest) (hfits : Fits record) :
    recorded bundled s = .ok record := by
  unfold recorded
  rw [hfile]
  change (readDocument Record.text _ (some (.value record)) >>= fun value =>
    installedManifest value >>= fun _ => pure value) = _
  rw [readDocument_value hfits]
  change (installedManifest record >>= fun _ => pure record) = _
  rw [hchecked]
  rfl

theorem fits_of_recorded {s : State} {record found : Record}
    (hfile : s.file = some (.value record)) (h : recorded bundled s = .ok found) : Fits record := by
  unfold recorded at h
  rw [hfile] at h
  obtain ⟨value, hread, _⟩ := bind_eq_ok.mp h
  obtain ⟨hvalue, hlength⟩ := readDocument_eq_ok.mp hread
  cases hvalue
  exact hlength

/-- After a record was written, it describes what is installed exactly when it can be read and is
about that bundle. -/
theorem described_of_file {s : State} {record : Record} (hfile : s.file = some (.value record))
    (hversion : record.version = record.bundleManifest.version)
    (hchecked : installedManifest record = .ok record.bundleManifest) :
    Described bundled s ↔ Fits record ∧ record.bundleManifest = made bundled s := by
  constructor
  · intro h
    obtain ⟨found, hfound, hmanifest⟩ := bind_eq_ok.mp h.engine
    have hfits := fits_of_recorded hfile hfound
    have hrecorded : recorded bundled s = .ok record := recorded_file hfile hchecked hfits
    rw [hrecorded] at hfound
    cases hfound
    exact ⟨hfits, pure_eq_ok.mp hmanifest⟩
  · rintro ⟨hfits, hmade⟩
    have hrecorded : recorded bundled s = .ok record := recorded_file hfile hchecked hfits
    constructor
    · rw [engine, hrecorded, ← hmade]
      rfl
    · rw [current, hrecorded, ← hmade, ← hversion]
      rfl

/-- The record and the patch decide it alone. -/
theorem Described.congr {s t : State} (h : Described bundled s) (hfile : t.file = s.file)
    (hmade : made bundled t = made bundled s) : Described bundled t := by
  have hrecorded : recorded bundled t = recorded bundled s := by
    unfold recorded
    rw [hfile]
  constructor
  · rw [Fenix.engine, hrecorded, hmade]
    exact h.engine
  · rw [Fenix.current, hrecorded, hmade]
    exact h.current

/-! ## One operation -/

@[simp] theorem report_file (reported : Option (Option Target)) (s : State) :
    (report reported s).file = s.file := by
  cases reported <;> rfl

@[simp] theorem report_patch (reported : Option (Option Target)) (s : State) :
    (report reported s).patch = s.patch := by
  cases reported <;> rfl

/-- The installation after its selection. -/
theorem install_eq (course : Course) (s : State) :
    install bundled course s =
      (liftM (prepare bundled course s) >>= fun record =>
        perform course.write .io (modify fun s => { s with file := some (.value record) }) >>=
          fun _ => liftM course.patch >>= fun _ =>
            modify fun s => { s with patch := some record.bundleManifest } : Run Unit)
        (report course.reported s) := rfl

/-- A job that ends before its record is written leaves the record and the patch. -/
theorem install_unwritten {course : Course} {s : State} (h : written bundled course s = none) :
    (stateOf (install bundled course s)).file = s.file ∧
      (stateOf (install bundled course s)).patch = s.patch := by
  rw [install_eq]
  cases hprepare : prepare bundled course s with
  | error e => exact ⟨report_file .., report_patch ..⟩
  | ok record =>
    simp only [written, hprepare] at h
    cases hwrite : course.write with
    | none =>
      rw [hwrite] at h
      cases h
    | fails late =>
      cases late with
      | false => exact ⟨report_file .., report_patch ..⟩
      | true =>
        rw [hwrite] at h
        cases h
    | stops late =>
      cases late with
      | false => exact ⟨report_file .., report_patch ..⟩
      | true =>
        rw [hwrite] at h
        cases h

/-- A job that wrote its record has installed the patch exactly when the patch program was called
and succeeded. -/
theorem install_written {course : Course} {s : State} {record : Record}
    (h : written bundled course s = some record) :
    prepare bundled course s = .ok record ∧
      (stateOf (install bundled course s)).file = some (.value record) ∧
      (course.write = .none ∧ course.patch = .ok () →
        (stateOf (install bundled course s)).patch = some record.bundleManifest) ∧
      (¬ (course.write = .none ∧ course.patch = .ok ()) →
        (stateOf (install bundled course s)).patch = s.patch) := by
  rw [install_eq]
  cases hprepare : prepare bundled course s with
  | error e =>
    simp only [written, hprepare] at h
    cases h
  | ok found =>
    simp only [written, hprepare] at h
    cases hpasses : course.write.passes with
    | false =>
      rw [hpasses] at h
      cases h
    | true =>
      rw [hpasses] at h
      cases h
      refine ⟨rfl, ?_⟩
      cases hwrite : course.write with
      | none =>
        cases hpatch : course.patch with
        | ok u => exact ⟨rfl, fun _ => rfl, fun hnot => absurd ⟨rfl, rfl⟩ hnot⟩
        | error e => exact ⟨rfl, nofun, fun _ => report_patch ..⟩
      | fails late =>
        cases late with
        | false =>
          rw [hwrite] at hpasses
          cases hpasses
        | true => exact ⟨rfl, nofun, fun _ => report_patch ..⟩
      | stops late =>
        cases late with
        | false =>
          rw [hwrite] at hpasses
          cases hpasses
        | true => exact ⟨rfl, nofun, fun _ => report_patch ..⟩

theorem made_congr {s t : State} (h : t.patch = s.patch) : made bundled t = made bundled s := by
  rw [made, made, h]

theorem install_described {course : Course} {s : State} (hs : Described bundled s) :
    Described bundled (stateOf (install bundled course s)) ↔
      Careful bundled s (.install course) := by
  cases h : written bundled course s with
  | none =>
    obtain ⟨hfile, hpatch⟩ := install_unwritten h
    refine ⟨fun _ record hrecord => ?_, fun _ => hs.congr hfile (made_congr hpatch)⟩
    rw [h] at hrecord
    cases hrecord
  | some record =>
    obtain ⟨hprepare, hfile, hdone, hleft⟩ := install_written h
    obtain ⟨hversion, hchecked⟩ := prepare_eq_ok hprepare
    rw [described_of_file hfile hversion hchecked]
    have hiff : record.bundleManifest = made bundled (stateOf (install bundled course s)) ↔
        course.write = .none ∧ course.patch = .ok () ∨ record.bundleManifest = made bundled s := by
      by_cases hsucceeds : course.write = .none ∧ course.patch = .ok ()
      · rw [made, hdone hsucceeds]
        exact ⟨fun _ => .inl hsucceeds, fun _ => rfl⟩
      · rw [made_congr (hleft hsucceeds)]
        exact ⟨.inr, fun hor => hor.resolve_left hsucceeds⟩
    rw [hiff]
    constructor
    · intro hfit found hfound
      rw [h] at hfound
      cases hfound
      exact hfit
    · intro hcareful
      exact hcareful record h

/-- Removing the patch leaves the record. -/
theorem restore_state (course : Course) {s : State} (hs : Described bundled s) :
    (course.prepared = .ok () ∧ course.patch = .ok () →
      stateOf (restore bundled course s) = { s with patch := none }) ∧
    (¬ (course.prepared = .ok () ∧ course.patch = .ok ()) →
      stateOf (restore bundled course s) = s) := by
  have heq : restore bundled course s = (liftM course.prepared >>= fun _ =>
      liftM (engine bundled s) >>= fun _ => liftM course.patch >>= fun _ =>
        modify fun s => { s with patch := none } : Run Unit) s := by
    unfold restore
    cases course.prepared <;> rfl
  rw [heq, hs.engine]
  cases course.prepared with
  | error e => exact ⟨fun h => absurd h.1 nofun, fun _ => rfl⟩
  | ok u =>
    cases course.patch with
    | error e => exact ⟨fun h => absurd h.2 nofun, fun _ => rfl⟩
    | ok u' => exact ⟨fun _ => rfl, fun h => absurd ⟨rfl, rfl⟩ h⟩

theorem restore_described {course : Course} {s : State} (hs : Described bundled s) :
    Described bundled (stateOf (restore bundled course s)) ↔
      Careful bundled s (.restore course) := by
  obtain ⟨hremoves, hleaves⟩ := restore_state course hs
  by_cases hdone : course.prepared = .ok () ∧ course.patch = .ok ()
  · rw [hremoves hdone]
    constructor
    · intro h _ _
      have hengine : engine bundled s = .ok bundled.bundle := h.engine
      rw [hs.engine] at hengine
      exact Except.ok.inj hengine
    · intro hcareful
      exact hs.congr rfl (hcareful hdone.1 hdone.2).symm
  · rw [hleaves hdone]
    exact ⟨fun _ hprepared hpatch => absurd ⟨hprepared, hpatch⟩ hdone, fun _ => hs⟩

/-- Every other operation leaves the record and the patch. -/
theorem configure_state (course : Course) (s : State) :
    stateOf (configure bundled course s) = s := by
  have heq : configure bundled course s = (liftM course.prepared >>= fun _ =>
      liftM (engine bundled s) >>= fun _ => liftM course.patch : Run Unit) s := by
    unfold configure
    cases course.prepared <;> rfl
  rw [heq]
  cases course.prepared with
  | error e => rfl
  | ok u =>
    cases engine bundled s with
    | error e => rfl
    | ok manifest => cases course.patch <;> rfl

theorem check_described {due : Bool} {s : State} (hs : Described bundled s) :
    Described bundled (stateOf (check bundled due s)) := by
  have heq : check bundled due s = (liftM (current bundled s) >>= fun current =>
      if s.worker.isSome || (!due && s.baseline == current) then pure () else
        set { s with baseline := current, worker := some current } : Run Unit) s := rfl
  rw [heq, hs.current]
  change Described bundled (stateOf ((if _ then _ else _ : Run Unit) s))
  split
  · exact hs
  · show Described bundled { s with baseline := _, worker := _ }
    exact hs.congr rfl rfl

theorem endCheck_described {discover : String → Except Error (Option Target)} {s : State}
    (hs : Described bundled s) : Described bundled (stateOf (endCheck discover s)) := by
  unfold endCheck
  rw [get_bind]
  cases s.worker with
  | none => exact hs
  | some current =>
    dsimp only
    cases discover current with
    | ok candidate =>
      show Described bundled { s with candidate := _, worker := _ }
      exact hs.congr rfl rfl
    | error e =>
      show Described bundled { s with worker := _ }
      exact hs.congr rfl rfl

theorem run_described {s : State} (hs : Described bundled s) (op : Operation) :
    Described bundled (stateOf (op.run bundled s)) ↔ Careful bundled s op := by
  cases op with
  | install course => exact install_described hs
  | restore course => exact restore_described hs
  | configure course =>
    rw [Operation.run, configure_state]
    exact ⟨fun _ => trivial, fun _ => hs⟩
  | check due => exact ⟨fun _ => trivial, fun _ => check_described hs⟩
  | endCheck discover => exact ⟨fun _ => trivial, fun _ => endCheck_described hs⟩

/-! ## Every sequence of operations -/

/-- Nothing was ever installed. -/
theorem described_fresh {s : State} (hfile : s.file = none) (hpatch : s.patch = none) :
    Described bundled s := by
  have hmade : made bundled s = bundled.bundle := by rw [made, hpatch]; rfl
  constructor
  · rw [engine, recorded, hfile, hmade]
    rfl
  · rw [current, recorded, hfile, hmade]
    rfl

/-- The patch program and the update check work with the version that is installed after every
operation of a sequence exactly when every operation of it is careful. -/
theorem release_record {s : State} (hs : Described bundled s) (ops : List Operation) :
    (∀ done, done <+: ops → Described bundled (after bundled s done)) ↔
      ∀ done op, done ++ [op] <+: ops → Careful bundled (after bundled s done) op := by
  induction ops generalizing s with
  | nil =>
    constructor
    · intro _ done op hprefix
      exact absurd (List.prefix_nil.mp hprefix) (List.append_ne_nil_of_right_ne_nil _ nofun)
    · intro _ done hprefix
      rw [List.prefix_nil.mp hprefix]
      exact hs
  | cons op ops ih =>
    constructor
    · intro h done op' hprefix
      have hnext : Described bundled (stateOf (op.run bundled s)) :=
        h [op] (List.prefix_append [op] ops)
      cases done with
      | nil =>
        cases (List.cons_prefix_cons.mp hprefix).1
        exact (run_described hs op).mp hnext
      | cons first done =>
        obtain ⟨rfl, hrest⟩ := List.cons_prefix_cons.mp hprefix
        apply (ih hnext).mp _ done op' hrest
        intro done' hdone'
        exact h (first :: done') (List.cons_prefix_cons.mpr ⟨rfl, hdone'⟩)
    · intro h done hprefix
      have hnext : Described bundled (stateOf (op.run bundled s)) :=
        (run_described hs op).mpr (h [] op (List.prefix_append [op] ops))
      cases done with
      | nil => exact hs
      | cons first done =>
        obtain ⟨rfl, hrest⟩ := List.cons_prefix_cons.mp hprefix
        apply (ih hnext).mpr _ done hrest
        intro done' op' hdone'
        exact h (first :: done') op' (List.cons_prefix_cons.mpr ⟨rfl, hdone'⟩)

/-! ## An upgrade that fails -/

/-- A bundle with one file of each kind. -/
def smallManifest (version : String) : Manifest where
  format := 1
  repository := PROJECT
  version := version
  runnerVersion := "11.0"
  runnerFiles := [("wine", digest)]
  files := [("ntdll.dll", digest)]
  integration := [("fenix-runtime", digest)]
  prefixFiles := [("drive_c/windows/system32/fenix-runtime", digest)]
where
  digest := String.ofList (List.replicate 64 '0')

def smallTarget (version : String) : Target where
  bundle := smallManifest version
  release := { version, url := PROJECT, sha256 := "", archiveRoot := "fenix" }

def smallBundled : Bundled where
  toTarget := smallTarget "0.1.4"
  checked := by decide +kernel

/-- The add-on is installed, an update is found, and its installation fails in the patch program. -/
def failedUpgrade : List Operation :=
  [.install {}, .check true, .endCheck fun _ => .ok (some (smallTarget "0.1.5")),
    .install { patch := .error .io }]

theorem release_record_failed :
    (∀ done, done <+: failedUpgrade → Described smallBundled (after smallBundled {} done)) ↔
      ∀ done op, done ++ [op] <+: failedUpgrade →
        Careful smallBundled (after smallBundled {} done) op :=
  release_record (described_fresh rfl rfl) failedUpgrade

theorem upgrade_patch :
    (made smallBundled (after smallBundled {} failedUpgrade)).version = "0.1.4" := by
  decide +kernel

theorem upgrade_current :
    current smallBundled (after smallBundled {} failedUpgrade) = .ok "0.1.5" := by
  decide +kernel

/-- The record names the bundle that could not be installed, and no check looks for it any more. -/
theorem upgrade_recorded :
    (made smallBundled (after smallBundled {} failedUpgrade)).version = "0.1.4" ∧
      current smallBundled (after smallBundled {} failedUpgrade) = .ok "0.1.5" ∧
      ¬ ∀ done, done <+: failedUpgrade → Described smallBundled (after smallBundled {} done) := by
  refine ⟨upgrade_patch, upgrade_current, fun h => ?_⟩
  have hcurrent := (h failedUpgrade (List.prefix_refl _)).current
  rw [upgrade_current, upgrade_patch] at hcurrent
  exact absurd (Except.ok.inj hcurrent) (by decide)

end Flightdeck.Updates.Fenix
