import Flightdeck.Graphics.Undo

/-!
# Runs of the preparation

`prepare` writes the undo, then the settings, and removes an undo that holds nothing.  A run may be
cut off between its writes, and between two runs the user may change his settings.
-/

namespace Flightdeck.GraphicsSettings

open Foundation

structure Backup where
  schema : Nat
  original : Undo

/-- The folder of one settings file: the file, its marker, and how many other entries there are.
What a marker holds is at most six options, far below the limit of its size. -/
structure Folder where
  config : Bytes
  marker : Option Backup
  others : Nat

namespace Folder

/-- The entries that `case_child` goes through. -/
def entries (folder : Folder) : Nat :=
  folder.others + 1 + if folder.marker.isSome then 1 else 0

/-- The undo of the marker, if any. -/
def original (folder : Folder) : Undo :=
  match folder.marker with
  | some backup => backup.original
  | none => ∅

end Folder

inductive Write where
  | marker (saved : Undo)
  | settings (edited : Bytes)
  | removeMarker

def Write.apply (folder : Folder) : Write → Folder
  | .marker saved => { folder with marker := some ⟨1, saved⟩ }
  | .settings edited => { folder with config := edited }
  | .removeMarker => { folder with marker := none }

structure Prepared where
  data : Bytes
  edited : Bytes
  original : Undo
  saved : Undo
  changed : List String

def inspect (folder : Folder) (compatibility : Bool) : Option Prepared :=
  if LIMIT < folder.config.length then none
  else if folder.marker.any (fun backup => backup.schema != 1) then none
  else
    (transform folder.config folder.original compatibility).map fun result =>
      ⟨folder.config, result.1, folder.original, result.2.1, result.2.2⟩

/-- The writes of one run, or `none` where it skips the file. -/
def writes (folder : Folder) (compatibility : Bool) : Option (List Write) :=
  if 256 < folder.entries then none
  else
    (inspect folder compatibility).map fun p =>
      (if ¬ p.saved.isEmpty ∧ p.saved.toList ≠ p.original.toList then [.marker p.saved] else []) ++
        (if p.edited ≠ p.data then [.settings p.edited] else []) ++
        (if p.saved.isEmpty ∧ folder.marker.isSome then [.removeMarker] else [])

/-- A run that is cut off after some of its writes; there are never more than three. -/
def prepare (folder : Folder) (compatibility : Bool) (done : Nat) : Folder :=
  match writes folder compatibility with
  | none => folder
  | some all => (all.take done).foldl Write.apply folder

/-! ## The user's settings -/

/-- The line of an option. -/
def Document.field? (d : Document) (name : String) : Option Field :=
  d.fields.find? fun f => f.name == name

/-- The setting of an option in a file. -/
def settingOf (config : Bytes) (name : String) : Option Text :=
  (parse config).bind fun d => (d.field? name).map Field.value

/-- The setting is the one that launches without NVIDIA support use. -/
def IsSafe (name : String) (v : Text) : Prop := (option name.toList).map Prod.snd = some v

instance (name : String) (v : Text) : Decidable (IsSafe name v) :=
  inferInstanceAs (Decidable (_ = _))

/-- The settings of the user, by their options. -/
abbrev Wishes := String → Option Text

/-- What the user wants after he has changed his file: an option that he changed has his setting.  A
safe setting that he gives an option with an undo is the same as that of a run, so nothing is known
of his wish. -/
def Wishes.edited (wishes : Wishes) (folder : Folder) (config : Bytes) : Wishes := fun name =>
  match settingOf config name with
  | none => none
  | some v =>
    if settingOf folder.config name = some v then wishes name
    else if IsSafe name v ∧ folder.original[name]?.isSome then none
    else some v

inductive Action where
  /-- A run of `prepare`, with the number of writes that it comes to. -/
  | run (compatibility : Bool) (done : Nat)
  /-- The user changes his settings, and what else is in the folder. -/
  | change (config : Bytes) (others : Nat)

def act (state : Folder × Wishes) : Action → Folder × Wishes
  | .run compatibility done => (prepare state.1 compatibility done, state.2)
  | .change config others =>
    ({ state.1 with config := config, others := others }, state.2.edited state.1 config)

/-- The folder is one that `prepare` reads: the file is within the limit and the folder, with the
marker, has no more entries than it goes through. -/
def Fits (folder : Folder) : Prop := folder.entries ≤ 256 ∧ folder.config.length ≤ LIMIT

/-- Every run finds a folder that it reads, and the user leaves files that it accepts. -/
def Runs : Folder × Wishes → List Action → Prop
  | _, [] => True
  | state, action :: actions =>
    (match action with
      | .run _ _ => Fits state.1
      | .change config _ => (parse config).isSome = true) ∧
    Runs (act state action) actions

def runAll (state : Folder × Wishes) (actions : List Action) : Folder × Wishes :=
  actions.foldl act state

/-! ## One option over the writes of a run -/

/-- The option has the user's setting, or the safe one with the user's in the undo. -/
def Kept (name : String) (wish : Text) (v : Text) (undo : Option String) : Prop :=
  (v = wish ∧ (IsSafe name wish → undo = none)) ∨
    (IsSafe name v ∧ ¬ IsSafe name wish ∧ undo = some (String.ofList wish))

structure Good (folder : Folder) (wishes : Wishes) : Prop where
  schema : ∀ backup, folder.marker = some backup → backup.schema = 1
  valid : validUndo folder.original = true
  accepted : (parse folder.config).isSome = true
  kept : ∀ name wish, wishes name = some wish →
    ∃ v, settingOf folder.config name = some v ∧ Kept name wish v folder.original[name]?

/-! ## Settings and undo of a document -/

section

variable {config : Bytes} {d : Document} {original : Undo} {compatibility : Bool}

theorem field?_some {name : String} {f : Field} (found : d.field? name = some f) :
    f ∈ d.fields ∧ f.name = name :=
  ⟨List.mem_of_find?_eq_some found, by simpa using List.find?_some found⟩

theorem field?_replace (value : Field → Text) (name : String) :
    (d.replace value).field? name =
      (d.field? name).map fun f => { f with value := value f } := by
  unfold Document.field?
  rw [Document.fields_replace, List.find?_map]
  rfl

theorem settingOf_parse (parsed : parse config = some d) (name : String) :
    settingOf config name = (d.field? name).map Field.value := by
  unfold settingOf
  rw [parsed]
  rfl

/-- The setting that a run gives an option. -/
theorem settingOf_edited (valid : validUndo original = true) (parsed : parse config = some d)
    (name : String) : settingOf (d.edited original compatibility).bytes name =
      (d.field? name).map fun f => (adjust original compatibility f).2 := by
  rw [settingOf_parse (parse_edited compatibility valid parsed)]
  unfold Document.edited
  rw [field?_replace, Option.map_map]
  rfl

/-- What a run saves for an option. -/
theorem saved_get (named : d.Named) (name : String) : (d.saved original compatibility)[name]? =
    (d.field? name).bind fun f => (adjust original compatibility f).1 := by
  cases found : d.field? name with
  | some f =>
      obtain ⟨member, rfl⟩ := field?_some found
      exact Document.saved_of_mem _ _ named member
  | none =>
      apply Document.saved_of_notMem
      intro inside
      obtain ⟨f, member, same⟩ := List.mem_map.mp inside
      have absent := List.find?_eq_none.mp found f member
      exact absent (beq_iff_eq.mpr same)

theorem adjust_congr {f g : Field} (key : f.key = g.key) (value : f.value = g.value) :
    adjust original compatibility f = adjust original compatibility g := by
  unfold adjust Field.name
  rw [key, value]

/-- A run that saves nothing leaves the file as it is. -/
theorem edited_of_empty (parsed : parse config = some d) (named : d.Named)
    (empty : d.saved original true = ∅) : d.edited original true = d := by
  apply Document.replace_self
  intro f member
  obtain ⟨⟨unsupported, safe⟩, found⟩ :=
    Option.isSome_iff_exists.mp (known_of_parse parsed f member)
  have none := Document.saved_of_mem original true named member
  rw [empty, Std.ExtTreeMap.getElem?_empty] at none
  by_cases held : f.value ∈ unsupported
  · rw [adjust_unsupported found held] at none
    contradiction
  · by_cases same : f.value = safe
    · rw [adjust_safe found same]
    · rw [adjust_third found ⟨held, same⟩]

end

section

variable {original : Undo} {f : Field} {unsupported : List Text} {safe wish : Text}

theorem isSafe_iff (found : option f.key = some (unsupported, safe)) (v : Text) :
    IsSafe f.name v ↔ v = safe := by
  unfold IsSafe
  rw [name_toList, found, Option.map_some, Option.some.injEq]
  exact eq_comm

/-- The marker of a compatibility run keeps what the option had. -/
theorem Kept.marker (found : option f.key = some (unsupported, safe))
    (kept : Kept f.name wish f.value original[f.name]?) :
    Kept f.name wish f.value (adjust original true f).1 := by
  by_cases held : f.value ∈ unsupported
  · have other : f.value ≠ safe := fun same => (option_settings found).2.1 (same ▸ held)
    rw [adjust_unsupported found held]
    rcases kept with ⟨same, -⟩ | ⟨isSafe, -⟩
    · refine .inl ⟨same, fun wishSafe => ?_⟩
      rw [← same] at wishSafe
      exact absurd ((isSafe_iff found _).mp wishSafe) other
    · exact absurd ((isSafe_iff found _).mp isSafe) other
  · by_cases same : f.value = safe
    · rw [adjust_safe found same]
      exact kept
    · rw [adjust_third found ⟨held, same⟩]
      rcases kept with ⟨mine, -⟩ | ⟨isSafe, -⟩
      · exact .inl ⟨mine, fun _ => rfl⟩
      · exact absurd ((isSafe_iff found _).mp isSafe) same

/-- So do its settings, with that marker. -/
theorem Kept.settings (found : option f.key = some (unsupported, safe))
    (kept : Kept f.name wish f.value original[f.name]?) :
    Kept f.name wish (adjust original true f).2 (adjust original true f).1 := by
  by_cases held : f.value ∈ unsupported
  · have other : f.value ≠ safe := fun same => (option_settings found).2.1 (same ▸ held)
    rw [adjust_unsupported found held]
    rcases kept with ⟨same, -⟩ | ⟨isSafe, -⟩
    · refine .inr ⟨(isSafe_iff found safe).mpr rfl, fun wishSafe => ?_, by rw [same]⟩
      rw [← same] at wishSafe
      exact other ((isSafe_iff found _).mp wishSafe)
    · exact absurd ((isSafe_iff found _).mp isSafe) other
  · have unchanged : (adjust original true f).2 = f.value := by
      by_cases same : f.value = safe
      · rw [adjust_safe found same]
      · rw [adjust_third found ⟨held, same⟩]
    rw [unchanged]
    exact kept.marker found

/-- A run without compatibility gives the option the user's setting. -/
theorem Kept.restored (found : option f.key = some (unsupported, safe))
    (kept : Kept f.name wish f.value original[f.name]?) : (adjust original false f).2 = wish := by
  rcases kept with ⟨same, none⟩ | ⟨isSafe, -, entry⟩
  · rw [adjust_keep found]
    · exact same
    · by_cases other : f.value = safe
      · exact .inr (none ((isSafe_iff found wish).mpr (same ▸ other)))
      · exact .inl other
  · rw [adjust_undo found ((isSafe_iff found _).mp isSafe) entry]
    exact String.toList_ofList

/-- The user's setting is kept whatever the undo says, unless it is the safe one. -/
theorem Kept.own {name : String} {undo : Option String} (h : IsSafe name wish → undo = none) :
    Kept name wish wish undo := .inl ⟨rfl, h⟩

theorem Kept.unsaved {name : String} {v : Text} {undo : Option String}
    (kept : Kept name wish v undo) : IsSafe name wish → undo = none := by
  intro wishSafe
  rcases kept with ⟨-, none⟩ | ⟨-, other, -⟩
  · exact none wishSafe
  · exact absurd wishSafe other

end

/-! ## Folders -/

/-- What the settings and the undo of a folder keep. -/
structure Sound (config : Bytes) (undo : Undo) (wishes : Wishes) : Prop where
  valid : validUndo undo = true
  accepted : (parse config).isSome = true
  kept : ∀ name wish, wishes name = some wish →
    ∃ v, settingOf config name = some v ∧ Kept name wish v undo[name]?

theorem Good.sound {folder : Folder} {wishes : Wishes} (h : Good folder wishes) :
    Sound folder.config folder.original wishes := ⟨h.valid, h.accepted, h.kept⟩

section

variable {config : Bytes} {d : Document} {undo : Undo} {wishes : Wishes}

/-- The option of a wish, with what is known of it. -/
theorem Sound.field (h : Sound config undo wishes) (parsed : parse config = some d)
    {name : String} {wish : Text} (wished : wishes name = some wish) :
    ∃ f unsupported safe, d.field? name = some f ∧ f.name = name ∧
      option f.key = some (unsupported, safe) ∧ Kept f.name wish f.value undo[f.name]? := by
  obtain ⟨v, setting, kept⟩ := h.kept name wish wished
  rw [settingOf_parse parsed, Option.map_eq_some_iff] at setting
  obtain ⟨f, found, rfl⟩ := setting
  obtain ⟨member, rfl⟩ := field?_some found
  obtain ⟨⟨unsupported, safe⟩, known⟩ :=
    Option.isSome_iff_exists.mp (known_of_parse parsed f member)
  exact ⟨f, unsupported, safe, found, rfl, known, kept⟩

theorem Sound.marker (h : Sound config undo wishes) (parsed : parse config = some d) :
    Sound config (d.saved undo true) wishes := by
  have named := named_of_parse parsed
  refine ⟨validUndo_saved h.valid named (known_of_parse parsed) true, h.accepted, ?_⟩
  intro name wish wished
  obtain ⟨f, unsupported, safe, found, rfl, known, kept⟩ := h.field parsed wished
  refine ⟨f.value, by rw [settingOf_parse parsed, found]; rfl, ?_⟩
  rw [saved_get named, found]
  exact kept.marker known

theorem Sound.settings (h : Sound config undo wishes) (parsed : parse config = some d) :
    Sound (d.edited undo true).bytes (d.saved undo true) wishes := by
  have named := named_of_parse parsed
  refine ⟨validUndo_saved h.valid named (known_of_parse parsed) true,
    by rw [parse_edited true h.valid parsed]; rfl, ?_⟩
  intro name wish wished
  obtain ⟨f, unsupported, safe, found, rfl, known, kept⟩ := h.field parsed wished
  refine ⟨(adjust undo true f).2, by rw [settingOf_edited h.valid parsed, found]; rfl, ?_⟩
  rw [saved_get named, found]
  exact kept.settings known

/-- After a run without compatibility every option has the user's setting. -/
theorem Sound.wished (h : Sound config undo wishes) (parsed : parse config = some d)
    {name : String} {wish : Text} (wished : wishes name = some wish) :
    settingOf (d.edited undo false).bytes name = some wish := by
  obtain ⟨f, unsupported, safe, found, rfl, known, kept⟩ := h.field parsed wished
  rw [settingOf_edited h.valid parsed, found]
  exact congrArg some (kept.restored known)

theorem Sound.restored (h : Sound config undo wishes) (parsed : parse config = some d) :
    Sound (d.edited undo false).bytes undo wishes := by
  refine ⟨h.valid, by rw [parse_edited false h.valid parsed]; rfl, ?_⟩
  intro name wish wished
  obtain ⟨v, -, kept⟩ := h.kept name wish wished
  exact ⟨wish, h.wished parsed wished, .own kept.unsaved⟩

theorem Sound.removed (h : Sound config undo wishes) (parsed : parse config = some d) :
    Sound (d.edited undo false).bytes ∅ wishes := by
  refine ⟨validUndo_empty, by rw [parse_edited false h.valid parsed]; rfl, ?_⟩
  intro name wish wished
  exact ⟨wish, h.wished parsed wished, .own fun _ => by simp⟩

end

/-- The writes of a run on a folder that it reads. -/
theorem writes_eq {folder : Folder} {wishes : Wishes} (good : Good folder wishes)
    (fits : Fits folder) {d : Document} (parsed : parse folder.config = some d)
    (compatibility : Bool) :
    writes folder compatibility = some
      ((if ¬ (d.saved folder.original compatibility).isEmpty ∧
          (d.saved folder.original compatibility).toList ≠ folder.original.toList then
        [.marker (d.saved folder.original compatibility)] else []) ++
        (if (d.edited folder.original compatibility).bytes ≠ folder.config then
          [.settings (d.edited folder.original compatibility).bytes] else []) ++
        (if (d.saved folder.original compatibility).isEmpty ∧ folder.marker.isSome then
          [.removeMarker] else [])) := by
  have schema : folder.marker.any (fun backup => backup.schema != 1) = false := by
    cases marker : folder.marker with
    | none => rfl
    | some backup =>
        rw [Option.any_some, good.schema backup marker]
        rfl
  unfold writes inspect
  rw [if_neg (Nat.not_lt.mpr fits.1), if_neg (Nat.not_lt.mpr fits.2), schema,
    if_neg Bool.false_ne_true, transform_eq compatibility good.valid parsed]
  rfl

end Flightdeck.GraphicsSettings
