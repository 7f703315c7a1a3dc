import Flightdeck.Graphics.Prepare

/-!
# What the user's settings come to

Whatever was cut off before, a run without compatibility that is finished gives every option the
user's setting, where the runs could read the folder.
-/

namespace Flightdeck.GraphicsSettings

open Foundation

variable {folder : Folder} {wishes : Wishes} {d : Document}

theorem toList_inj {a b : Undo} (same : a.toList = b.toList) : a = b := by
  rw [← insertAll_toList a, same, insertAll_toList]

theorem eq_empty {undo : Undo} (empty : undo.isEmpty = true) : undo = ∅ :=
  Std.ExtTreeMap.isEmpty_iff.mp empty

/-- A folder with a marker of the program is good when its settings and its undo are. -/
theorem Good.of_marker {config : Bytes} {undo : Undo} {others : Nat}
    (sound : Sound config undo wishes) : Good ⟨config, some ⟨1, undo⟩, others⟩ wishes :=
  ⟨fun _ same => by rw [← Option.some.inj same], sound.valid, sound.accepted, sound.kept⟩

theorem Good.of_none {config : Bytes} {others : Nat} (sound : Sound config ∅ wishes) :
    Good ⟨config, none, others⟩ wishes :=
  ⟨nofun, sound.valid, sound.accepted, sound.kept⟩

/-- Other settings with the same marker. -/
theorem Good.config (h : Good folder wishes) {config : Bytes}
    (sound : Sound config folder.original wishes) :
    Good { folder with config := config } wishes :=
  ⟨h.schema, sound.valid, sound.accepted, sound.kept⟩

/-- A compatibility run that may be cut off between any two writes. -/
theorem Good.prepare_on (h : Good folder wishes) (fits : Fits folder)
    (parsed : parse folder.config = some d) (done : Nat) :
    Good (prepare folder true done) wishes := by
  have marked := h.sound.marker parsed
  have both := h.sound.settings parsed
  have named := named_of_parse parsed
  unfold prepare
  rw [writes_eq h fits parsed]
  dsimp only
  by_cases empty : (d.saved folder.original true).isEmpty = true
  · -- nothing is saved, so nothing was changed, and at most the marker goes
    have none := eq_empty empty
    have bytes : (d.edited folder.original true).bytes = folder.config := by
      rw [edited_of_empty parsed named none, parse_bytes parsed]
    rw [none] at marked
    rw [if_neg (by simp [empty]), if_neg (not_not.mpr bytes)]
    split
    · cases done with
      | zero => exact h
      | succ done =>
          rw [List.nil_append, List.nil_append, List.take_of_length_le (by simp)]
          exact .of_none marked
    · simpa using h
  · rw [if_neg (c := _ ∧ folder.marker.isSome = true) fun both => empty both.1, List.append_nil]
    by_cases same : (d.saved folder.original true).toList = folder.original.toList
    · -- the marker holds this undo already
      rw [if_neg fun both => both.2 same, List.nil_append]
      rw [toList_inj same] at both
      split
      · cases done with
        | zero => exact h
        | succ done =>
            rw [List.take_of_length_le (by simp)]
            exact h.config both
      · simpa using h
    · rw [if_pos ⟨empty, same⟩]
      have written : Good { folder with marker := some ⟨1, d.saved folder.original true⟩ } wishes :=
        .of_marker marked
      split
      · match done with
        | 0 => exact h
        | 1 => exact written
        | done + 2 =>
            rw [List.take_of_length_le (by simp)]
            exact .of_marker both
      · cases done with
        | zero => exact h
        | succ done =>
            rw [List.append_nil, List.take_of_length_le (by simp)]
            exact written

/-- The writes of a run without compatibility. -/
theorem writes_off (h : Good folder wishes) (fits : Fits folder)
    (parsed : parse folder.config = some d) :
    writes folder false = some
      ((if (d.edited folder.original false).bytes ≠ folder.config then
          [.settings (d.edited folder.original false).bytes] else []) ++
        (if folder.marker.isSome then [.removeMarker] else [])) := by
  rw [writes_eq h fits parsed, Document.saved_off]
  simp

theorem Good.prepare_off (h : Good folder wishes) (fits : Fits folder)
    (parsed : parse folder.config = some d) (done : Nat) :
    Good (prepare folder false done) wishes := by
  have restored := h.sound.restored parsed
  have removed := h.sound.removed parsed
  unfold prepare
  rw [writes_off h fits parsed]
  dsimp only
  by_cases changed : (d.edited folder.original false).bytes ≠ folder.config
  · rw [if_pos changed]
    split
    · match done with
      | 0 => exact h
      | 1 => exact h.config restored
      | done + 2 =>
          rw [List.take_of_length_le (by simp)]
          exact .of_none removed
    · cases done with
      | zero => exact h
      | succ done =>
          rw [List.append_nil, List.take_of_length_le (by simp)]
          exact h.config restored
  · rw [if_neg changed]
    rw [not_not.mp changed] at removed
    split
    · cases done with
      | zero => exact h
      | succ done =>
          rw [List.nil_append, List.take_of_length_le (by simp)]
          exact .of_none removed
    · simpa using h

/-- A run that is finished gives every option the user's setting and leaves no marker. -/
theorem Good.finished (h : Good folder wishes) (fits : Fits folder) :
    (prepare folder false 3).marker = none ∧
      ∀ name wish, wishes name = some wish →
        settingOf (prepare folder false 3).config name = some wish := by
  obtain ⟨d, parsed⟩ := Option.isSome_iff_exists.mp h.accepted
  have wished (name : String) (wish : Text) (own : wishes name = some wish) :=
    h.sound.wished parsed own
  unfold prepare
  rw [writes_off h fits parsed]
  dsimp only
  by_cases changed : (d.edited folder.original false).bytes ≠ folder.config
  · rw [if_pos changed]
    cases marker : folder.marker with
    | none => exact ⟨marker, wished⟩
    | some backup => exact ⟨rfl, wished⟩
  · rw [if_neg changed]
    rw [not_not.mp changed] at wished
    cases marker : folder.marker with
    | none => exact ⟨marker, wished⟩
    | some backup => exact ⟨rfl, wished⟩

theorem Good.act (h : Good folder wishes) {action : Action}
    (meets : match action with
      | .run _ _ => Fits folder
      | .change config _ => (parse config).isSome = true) :
    Good (act (folder, wishes) action).1 (act (folder, wishes) action).2 := by
  cases action with
  | run compatibility done =>
      obtain ⟨d, parsed⟩ := Option.isSome_iff_exists.mp h.accepted
      cases compatibility with
      | true => exact h.prepare_on meets parsed done
      | false => exact h.prepare_off meets parsed done
  | change config others =>
      refine ⟨h.schema, h.valid, meets, fun name wish wished => ?_⟩
      simp only [GraphicsSettings.act, Wishes.edited] at wished
      split at wished
      · contradiction
      · next v setting =>
          split at wished
          · next kept =>
              obtain ⟨v', before, holds⟩ := h.kept name wish wished
              rw [kept] at before
              obtain rfl := Option.some.inj before
              exact ⟨v, setting, holds⟩
          · split at wished
            · contradiction
            · next own =>
                obtain rfl := Option.some.inj wished
                refine ⟨v, setting, .own fun safe => ?_⟩
                cases entry : folder.original[name]? with
                | none => exact entry
                | some old => exact absurd ⟨safe, by rw [entry]; rfl⟩ own

theorem Good.runAll (actions : List Action) : ∀ {state : Folder × Wishes},
    Good state.1 state.2 → Runs state actions →
      Good (runAll state actions).1 (runAll state actions).2 := by
  induction actions with
  | nil => exact fun h _ => h
  | cons action actions ih =>
      intro state h runs
      exact ih (h.act runs.1) runs.2

/-! ## The laws of the transformation -/

/-- Reading and writing a file gives it back. -/
def RoundTrips (bytes : Bytes) : Prop :=
  ∀ text encoding, decode bytes = some (text, encoding) → encode text encoding = bytes

/-- The new file is the old one but for values of options in the Video block. -/
def Framed (bytes edited : Bytes) : Prop :=
  ∃ d value, parse bytes = some d ∧ d.bytes = bytes ∧ edited = (Document.replace d value).bytes

/-- A setting that is neither safe nor one that a run replaces. -/
def Third (name : String) (v : Text) : Prop :=
  ∀ unsupported safe, option name.toList = some (unsupported, safe) → v ∉ unsupported ∧ v ≠ safe

/-- The user gave one option a setting of his own and left the others. -/
structure Changed (edited config : Bytes) (name : String) (v : Text) : Prop where
  accepted : (parse config).isSome = true
  own : settingOf config name = some v
  third : Third name v
  others : ∀ other, other ≠ name → settingOf config other = settingOf edited other

theorem adjust_own {original : Undo} {f : Field} (known : (option f.key).isSome = true)
    (third : Third f.name f.value) (compatibility : Bool) :
    adjust original compatibility f = (none, f.value) := by
  obtain ⟨⟨unsupported, safe⟩, found⟩ := Option.isSome_iff_exists.mp known
  exact adjust_third found (third unsupported safe (by rw [name_toList]; exact found)) _

/-- Two files with the same setting of an option are treated alike. -/
theorem adjust_alike {bytes config : Bytes} {d d' : Document} (parsed : parse bytes = some d)
    (parsed' : parse config = some d') {name : String}
    (same : settingOf config name = settingOf bytes name) {β : Type} (g : Option String × Text → β)
    (original : Undo) (compatibility : Bool) :
    (d'.field? name).map (fun f => g (adjust original compatibility f)) =
      (d.field? name).map (fun f => g (adjust original compatibility f)) := by
  rw [settingOf_parse parsed, settingOf_parse parsed'] at same
  cases found : d.field? name with
  | none =>
      rw [found] at same
      have none : d'.field? name = .none := by simpa using same
      rw [none]
  | some f =>
      rw [found] at same
      obtain ⟨f', found', value⟩ := Option.map_eq_some_iff.mp same
      rw [found']
      have key : f'.key = f.key := by
        rw [← name_toList f', ← name_toList f, (field?_some found').2, (field?_some found).2]
      exact congrArg (fun r => some (g r)) (adjust_congr key value)

/-- Over the next run the user's own setting stays, and the others keep their undo, or come back. -/
structure ThirdKept (bytes config : Bytes) (saved : Undo) (name : String) (v : Text) : Prop where
  on : ∃ edited' saved' changed', transform config saved true = some (edited', saved', changed') ∧
    settingOf edited' name = some v ∧ ∀ other, other ≠ name → saved'[other]? = saved[other]?
  off : ∃ edited' saved' changed',
    transform config saved false = some (edited', saved', changed') ∧
      settingOf edited' name = some v ∧
      ∀ other, other ≠ name → settingOf edited' other = settingOf bytes other

theorem settingOf_own {config : Bytes} {d : Document} {saved : Undo}
    (valid : validUndo saved = true) (parsed : parse config = some d) {name : String} {v : Text}
    (own : settingOf config name = some v) (third : Third name v) (compatibility : Bool) :
    settingOf (d.edited saved compatibility).bytes name = some v := by
  rw [settingOf_edited valid parsed]
  rw [settingOf_parse parsed] at own
  obtain ⟨f, found, rfl⟩ := Option.map_eq_some_iff.mp own
  obtain ⟨member, rfl⟩ := field?_some found
  rw [found, Option.map_some, adjust_own (known_of_parse parsed f member) third]

theorem bind_eq_join {α β : Type} (x : Option α) (g : α → Option β) :
    x.bind g = (x.map g).join := by
  cases x <;> rfl

/-- The undo says nothing of an option that has its safe setting: no earlier run put it there. -/
def Fresh (bytes : Bytes) (original : Undo) : Prop :=
  ∀ name v, settingOf bytes name = some v → IsSafe name v → original[name]? = none

/-- So it is where there was no undo. -/
theorem fresh_empty (bytes : Bytes) : Fresh bytes ∅ := fun _ _ _ _ => by simp

theorem field?_of_mem {d : Document} (named : d.Named) {f : Field} (member : f ∈ d.fields) :
    d.field? f.name = some f := by
  cases found : d.field? f.name with
  | none => exact absurd (beq_self_eq_true f.name) (List.find?_eq_none.mp found f member)
  | some g =>
      obtain ⟨inside, same⟩ := field?_some found
      rw [List.inj_on_of_nodup_map named inside member same]

theorem undone {bytes edited : Bytes} {original saved : Undo} {changed : List String}
    (done : transform bytes original true = some (edited, saved, changed))
    (fresh : Fresh bytes original) :
    ∃ changed', transform edited saved false = some (bytes, ∅, changed') := by
  refine transform_undone done fun d parsed f member safe => ?_
  apply fresh f.name f.value
  · rw [settingOf_parse parsed, field?_of_mem (named_of_parse parsed) member]
    rfl
  · unfold IsSafe
    rw [name_toList]
    exact safe

theorem third_kept {bytes edited config : Bytes} {original saved : Undo} {changed : List String}
    (done : transform bytes original true = some (edited, saved, changed))
    (fresh : Fresh bytes original) {name : String} {v : Text}
    (h : Changed edited config name v) : ThirdKept bytes config saved name v := by
  obtain ⟨d', parsed'⟩ := Option.isSome_iff_exists.mp h.accepted
  obtain ⟨valid, d, parsed, -, kept⟩ := transform_eq_some (transform_again done)
  obtain ⟨changed', undone⟩ := undone done fresh
  obtain ⟨-, e, reparsed, back, -⟩ := transform_eq_some undone
  obtain rfl : d = e := Option.some.inj (parsed.symm.trans reparsed)
  constructor
  · refine ⟨_, _, _, transform_eq true valid parsed',
      settingOf_own valid parsed' h.own h.third true, fun other different => ?_⟩
    have alike := adjust_alike parsed parsed' (h.others other different) Prod.fst saved true
    rw [saved_get (named_of_parse parsed'), bind_eq_join, alike, ← bind_eq_join,
      ← saved_get (named_of_parse parsed), ← kept]
  · refine ⟨_, _, _, transform_eq false valid parsed',
      settingOf_own valid parsed' h.own h.third false, fun other different => ?_⟩
    have alike := adjust_alike parsed parsed' (h.others other different) Prod.snd saved false
    rw [settingOf_edited valid parsed', alike, ← settingOf_edited valid parsed, ← back]

/-- Further compatibility runs, one after the other. -/
def furtherRuns (edited : Bytes) (saved : Undo) : Nat → Option (Bytes × Undo)
  | 0 => some (edited, saved)
  | n + 1 => (furtherRuns edited saved n).bind fun before =>
    (transform before.1 before.2 true).map fun result => (result.1, result.2.1)

theorem furtherRuns_same {bytes edited : Bytes} {original saved : Undo} {changed : List String}
    (done : transform bytes original true = some (edited, saved, changed)) (n : Nat) :
    furtherRuns edited saved n = some (edited, saved) := by
  induction n with
  | zero => rfl
  | succ n ih =>
      rw [furtherRuns, ih, Option.bind_some, transform_again done]
      rfl

theorem transform_framed {bytes edited : Bytes} {original saved : Undo} {changed : List String}
    {compatibility : Bool}
    (done : transform bytes original compatibility = some (edited, saved, changed)) :
    Framed bytes edited := by
  obtain ⟨-, d, parsed, rfl, -⟩ := transform_eq_some done
  exact ⟨d, _, parsed, parse_bytes parsed, rfl⟩

/-- The start of the runs: an accepted file without marker, whose settings are the user's. -/
def begin (config : Bytes) (others : Nat) : Folder × Wishes :=
  (⟨config, none, others⟩, settingOf config)

theorem good_begin {config : Bytes} (accepted : (parse config).isSome = true) (others : Nat) :
    Good (begin config others).1 (begin config others).2 :=
  ⟨nofun, validUndo_empty, accepted, fun _ wish own => ⟨wish, own, .own fun _ => by
    simp [begin, Folder.original]⟩⟩

/-- After a run without compatibility that was finished: no marker, and the user's settings. -/
def Restored (state : Folder × Wishes) : Prop :=
  (prepare state.1 false 3).marker = none ∧
    ∀ name wish, state.2 name = some wish →
      settingOf (prepare state.1 false 3).config name = some wish

/-- A compatibility run is undone exactly, also by parts, repeated and with changes of the user; and
so is any sequence of runs, cut off anywhere, that find a folder they can read. -/
theorem settings_undone (bytes : Bytes) (original : Undo) (config : Bytes) (others : Nat)
    (actions : List Action) :
    RoundTrips bytes ∧
    (∀ compatibility edited saved changed,
      transform bytes original compatibility = some (edited, saved, changed) →
        Framed bytes edited) ∧
    (∀ edited saved changed,
      transform bytes original true = some (edited, saved, changed) → Fresh bytes original →
      (∃ changed', transform edited saved false = some (bytes, ∅, changed')) ∧
        ∀ config name v, Changed edited config name v → ThirdKept bytes config saved name v) ∧
    (∀ edited saved changed,
      transform bytes original true = some (edited, saved, changed) →
        ∀ n, furtherRuns edited saved n = some (edited, saved)) ∧
    ((parse config).isSome = true →
      Runs (begin config others) actions → Fits (runAll (begin config others) actions).1 →
        Restored (runAll (begin config others) actions)) := by
  refine ⟨fun text encoding => encode_decode, ?_, ?_, ?_, ?_⟩
  · exact fun compatibility edited saved changed => transform_framed
  · intro edited saved changed done fresh
    exact ⟨undone done fresh, fun config name v => third_kept done fresh⟩
  · exact fun edited saved changed done => furtherRuns_same done
  · intro accepted runs fits
    exact (Good.runAll actions (good_begin accepted others) runs).finished fits

/-! ## A folder that the marker fills -/

def sampleConfig : Bytes := utf8 "\x7bVideo\n\tReflex ON\n\x7d\n"

theorem settings_undone_sample :
    ∃ edited saved changed, transform sampleConfig ∅ true = some (edited, saved, changed) ∧
      ∃ changed', transform edited saved false = some (sampleConfig, ∅, changed') := by
  have accepted : (transform sampleConfig ∅ true).isSome = true := by decide +kernel
  obtain ⟨⟨edited, saved, changed⟩, done⟩ := Option.isSome_iff_exists.mp accepted
  have undo := (settings_undone sampleConfig ∅ sampleConfig 0 []).2.2.1 edited saved changed done
    (fresh_empty _)
  exact ⟨edited, saved, changed, done, undo.1⟩

/-- With 255 other files the marker is one entry too many, and no later run looks at the file. -/
theorem marker_fills_folder :
    let folder : Folder := ⟨sampleConfig, none, 255⟩
    settingOf folder.config "Reflex" = some "ON".toList ∧
      settingOf (prepare (prepare folder true 3) false 3).config "Reflex" =
        some "OFF".toList ∧
      (prepare (prepare folder true 3) false 3).marker.isSome = true := by
  decide +kernel

end Flightdeck.GraphicsSettings
