import Flightdeck.Graphics.Document

/-!
# Undoing a compatibility run

What one run does to an option, and what a second run makes of the first.
-/

namespace Flightdeck.GraphicsSettings

open Foundation

namespace Document

variable {d : Document} {value value' : Field → Text}

theorem fields_replace : (d.replace value).fields =
    d.fields.map fun f => { f with value := value f } := by
  unfold fields replace
  induction d.rows with
  | nil => rfl
  | cons row rows ih =>
      cases row with
      | plain line => exact ih
      | field f => exact congrArg ({ f with value := value f } :: ·) ih

theorem replace_congr (same : ∀ f ∈ d.fields, value f = value' f) :
    d.replace value = d.replace value' := by
  unfold replace
  congr 1
  apply List.map_congr_left
  intro row member
  cases row with
  | plain line => rfl
  | field f =>
      have mine := same f (List.mem_filterMap.mpr ⟨.field f, member, rfl⟩)
      simp only [Row.replace, mine]

theorem replace_self (same : ∀ f ∈ d.fields, value f = f.value) : d.replace value = d := by
  have kept : d.replace value = d.replace Field.value := replace_congr same
  rw [kept]
  unfold replace
  have identity : Row.replace Field.value = id := by
    funext row
    cases row <;> rfl
  rw [identity, List.map_id]

theorem replace_replace : (d.replace value).replace value' =
    d.replace fun f => value' { f with value := value f } := by
  unfold replace
  rw [List.map_map]
  congr 1
  apply List.map_congr_left
  intro row _
  cases row <;> rfl

/-- No two options have the same name. -/
def Named (d : Document) : Prop := (d.fields.map Field.name).Nodup

theorem Named.replace (h : d.Named) : (d.replace value).Named := by
  unfold Named at h ⊢
  rw [fields_replace, List.map_map]
  exact h

end Document

theorem named_of_parse {bytes : Bytes} {d : Document} (parsed : parse bytes = some d) :
    d.Named := by
  have keys := (parse_fields parsed).2
  have names : d.fields.map Field.name = (d.fields.map Field.key).map String.ofList := by
    rw [List.map_map]
    rfl
  unfold Document.Named
  rw [names]
  exact keys.map fun a b same => String.ofList_injective same

/-! ## What is saved -/

theorem keys_filterMap {α β : Type} (name : α → String) (g : α → Option β) (l : List α) :
    List.Sublist ((l.filterMap fun a => (g a).map fun v => (name a, v)).map Prod.fst)
      (l.map name) := by
  induction l with
  | nil => exact List.Sublist.refl _
  | cons a l ih =>
      rw [List.filterMap_cons]
      cases g a with
      | none => exact ih.trans (List.sublist_cons_self _ _)
      | some v => exact ih.cons_cons _

namespace Document

variable {d : Document} (original : Undo) (compatibility : Bool)

theorem saved_of_mem (named : d.Named) {f : Field} (member : f ∈ d.fields) :
    (d.saved original compatibility)[f.name]? = (adjust original compatibility f).1 := by
  have nodup := List.Nodup.sublist
    (keys_filterMap Field.name (fun f => (adjust original compatibility f).1) d.fields) named
  unfold saved
  cases kept : (adjust original compatibility f).1 with
  | some v =>
      apply getElem?_insertAll_of_mem nodup
      exact List.mem_filterMap.mpr ⟨f, member, by rw [kept]; rfl⟩
  | none =>
      rw [getElem?_insertAll_of_notMem]
      · simp
      · intro inside
        obtain ⟨row, found, same⟩ := List.mem_map.mp inside
        obtain ⟨g, other, row_eq⟩ := List.mem_filterMap.mp found
        obtain ⟨v, saves, rfl⟩ := Option.map_eq_some_iff.mp row_eq
        have : g = f := List.inj_on_of_nodup_map named other member same
        rw [this, kept] at saves
        contradiction

theorem saved_of_notMem {name : String} (absent : name ∉ d.fields.map Field.name) :
    (d.saved original compatibility)[name]? = none := by
  unfold saved
  rw [getElem?_insertAll_of_notMem]
  · simp
  · intro inside
    exact absent ((keys_filterMap Field.name
      (fun f => (adjust original compatibility f).1) d.fields).subset inside)

end Document

/-! ## One option -/

theorem name_toList (f : Field) : f.name.toList = f.key := String.toList_ofList

theorem validUndo_get {original : Undo} (valid : validUndo original = true) {name old : String}
    (entry : original[name]? = some old) :
    ∃ unsupported safe, option name.toList = some (unsupported, safe) ∧
      old.toList ∈ unsupported := by
  have member := Std.ExtTreeMap.mem_toList_iff_getElem?_eq_some.mpr entry
  have holds := List.all_eq_true.mp valid (name, old) member
  dsimp only at holds
  split at holds
  · next unsupported safe found => exact ⟨unsupported, safe, found, of_decide_eq_true holds⟩
  · contradiction

theorem validUndo_empty : validUndo (∅ : Undo) = true := by
  unfold validUndo
  simp

/-- An entry of an undo is a setting, and not the safe one. -/
theorem undo_entry {original : Undo} (valid : validUndo original = true) {f : Field}
    {unsupported : List Text} {safe : Text} (found : option f.key = some (unsupported, safe))
    {old : String} (entry : original[f.name]? = some old) :
    old.toList ∈ unsupported ∧ Setting old.toList ∧ old.toList ≠ safe := by
  obtain ⟨unsupported', safe', found', member⟩ := validUndo_get valid entry
  rw [name_toList, found] at found'
  obtain ⟨rfl, rfl⟩ := Prod.mk.inj (Option.some.inj found')
  have settings := option_settings found
  refine ⟨member, settings.2.2 _ member, fun same => ?_⟩
  rw [same] at member
  exact settings.2.1 member

section

variable {original : Undo} {f : Field} {unsupported : List Text} {safe : Text}

theorem adjust_unsupported (found : option f.key = some (unsupported, safe))
    (held : f.value ∈ unsupported) :
    adjust original true f = (some (String.ofList f.value), safe) := by
  unfold adjust
  rw [found]
  exact if_pos held

theorem adjust_safe (found : option f.key = some (unsupported, safe)) (held : f.value = safe) :
    adjust original true f = (original[f.name]?, f.value) := by
  have other : f.value ∉ unsupported := by
    rw [held]
    exact (option_settings found).2.1
  unfold adjust
  rw [found]
  exact (if_neg other).trans (if_pos held)

theorem adjust_third (found : option f.key = some (unsupported, safe))
    (third : f.value ∉ unsupported ∧ f.value ≠ safe) (compatibility : Bool) :
    adjust original compatibility f = (none, f.value) := by
  unfold adjust
  rw [found]
  cases compatibility with
  | true => exact (if_neg third.1).trans (if_neg third.2)
  | false => exact if_neg third.2

theorem adjust_undo (found : option f.key = some (unsupported, safe)) (held : f.value = safe)
    {old : String} (entry : original[f.name]? = some old) :
    adjust original false f = (none, old.toList) := by
  unfold adjust
  rw [found]
  dsimp only
  rw [if_neg Bool.false_ne_true, if_pos held, entry]

theorem adjust_keep (found : option f.key = some (unsupported, safe))
    (kept : f.value ≠ safe ∨ original[f.name]? = none) :
    adjust original false f = (none, f.value) := by
  unfold adjust
  rw [found]
  dsimp only
  rw [if_neg Bool.false_ne_true]
  by_cases held : f.value = safe
  · have bare : original[f.name]? = none := kept.resolve_left (absurd held)
    rw [if_pos held, bare]
  · rw [if_neg held]

/-- A run without compatibility saves nothing. -/
theorem adjust_off (f : Field) : (adjust original false f).1 = none := by
  unfold adjust
  split
  · rfl
  · rw [if_neg Bool.false_ne_true]
    split
    · split <;> rfl
    · rfl

end

theorem Document.saved_off (d : Document) (original : Undo) : d.saved original false = ∅ := by
  unfold Document.saved
  have none : (d.fields.filterMap fun f =>
      (adjust original false f).1.map fun value => (f.name, value)) = [] := by
    apply List.filterMap_eq_nil_iff.mpr
    intro f _
    rw [adjust_off]
    rfl
  rw [none]
  rfl

/-- A run gives each option a setting, or leaves it as it is. -/
theorem settings_adjust {d : Document} {original : Undo} (valid : validUndo original = true)
    (known : ∀ f ∈ d.fields, (option f.key).isSome = true) (compatibility : Bool) :
    Settings d.fields fun f => (adjust original compatibility f).2 := by
  intro f member
  dsimp only
  obtain ⟨⟨unsupported, safe⟩, found⟩ := Option.isSome_iff_exists.mp (known f member)
  by_cases held : f.value ∈ unsupported
  · cases compatibility with
    | true =>
        rw [adjust_unsupported found held]
        exact .inr (option_settings found).1
    | false =>
        have other : f.value ≠ safe := fun same =>
          (option_settings found).2.1 (same ▸ held)
        rw [adjust_keep found (.inl other)]
        exact .inl rfl
  · by_cases same : f.value = safe
    · cases compatibility with
      | true =>
          rw [adjust_safe found same]
          exact .inl rfl
      | false =>
          cases entry : original[f.name]? with
          | none =>
              rw [adjust_keep found (.inr entry)]
              exact .inl rfl
          | some old =>
              rw [adjust_undo found same entry]
              exact .inr (undo_entry valid found entry).2.1
    · rw [adjust_third found ⟨held, same⟩]
      exact .inl rfl

/-- What a run saves is a valid undo. -/
theorem validUndo_saved {d : Document} {original : Undo} (valid : validUndo original = true)
    (named : d.Named) (known : ∀ f ∈ d.fields, (option f.key).isSome = true)
    (compatibility : Bool) : validUndo (d.saved original compatibility) = true := by
  unfold validUndo
  rw [List.all_eq_true]
  rintro ⟨name, old⟩ member
  have entry := Std.ExtTreeMap.mem_toList_iff_getElem?_eq_some.mp member
  by_cases inside : name ∈ d.fields.map Field.name
  · obtain ⟨f, present, rfl⟩ := List.mem_map.mp inside
    rw [Document.saved_of_mem _ _ named present] at entry
    obtain ⟨⟨unsupported, safe⟩, found⟩ := Option.isSome_iff_exists.mp (known f present)
    dsimp only
    rw [name_toList, found]
    cases compatibility with
    | false =>
        rw [adjust_off] at entry
        contradiction
    | true =>
        by_cases held : f.value ∈ unsupported
        · rw [adjust_unsupported found held] at entry
          rw [← Option.some.inj entry]
          simpa using held
        · by_cases same : f.value = safe
          · rw [adjust_safe found same] at entry
            simpa using (undo_entry valid found entry).1
          · rw [adjust_third found ⟨held, same⟩] at entry
            contradiction
  · rw [Document.saved_of_notMem _ _ inside] at entry
    contradiction

/-! ## The transformation -/

theorem transform_eq {bytes : Bytes} {d : Document} {original : Undo} (compatibility : Bool)
    (valid : validUndo original = true) (parsed : parse bytes = some d) :
    transform bytes original compatibility =
      some ((d.edited original compatibility).bytes, d.saved original compatibility,
        (d.changed original compatibility).keys) := by
  unfold transform
  rw [if_pos valid, parsed]

theorem transform_eq_some {bytes edited : Bytes} {original saved : Undo} {changed : List String}
    {compatibility : Bool}
    (done : transform bytes original compatibility = some (edited, saved, changed)) :
    validUndo original = true ∧ ∃ d, parse bytes = some d ∧
      edited = (d.edited original compatibility).bytes ∧
      saved = d.saved original compatibility := by
  unfold transform at done
  split at done
  · next valid =>
      split at done
      · contradiction
      · next d parsed =>
          obtain ⟨first, second⟩ := Prod.mk.inj (Option.some.inj done)
          exact ⟨valid, d, parsed, first.symm, (Prod.mk.inj second).1.symm⟩
  · contradiction

theorem known_of_parse {bytes : Bytes} {d : Document} (parsed : parse bytes = some d) :
    ∀ f ∈ d.fields, (option f.key).isSome = true :=
  fun f member => ((parse_fields parsed).1 f member).2

/-- The file that a run leaves is read as the edited document. -/
theorem parse_edited {bytes : Bytes} {d : Document} {original : Undo} (compatibility : Bool)
    (valid : validUndo original = true) (parsed : parse bytes = some d) :
    parse (d.edited original compatibility).bytes = some (d.edited original compatibility) :=
  parse_replace parsed (settings_adjust valid (known_of_parse parsed) compatibility)

/-- The second run of an option, after a first with compatibility. -/
theorem adjust_again {d : Document} (original : Undo) (named : d.Named) {f : Field}
    (member : f ∈ d.fields) (known : (option f.key).isSome = true) :
    let next : Field := { f with value := (adjust original true f).2 }
    adjust (d.saved original true) true next = ((adjust original true f).1, next.value) ∧
      (adjust (d.saved original true) false next).2 =
        if f.value ∈ ((option f.key).getD ([], [])).1 then f.value
        else if f.value = ((option f.key).getD ([], [])).2 then
          ((original[f.name]?).map String.toList).getD f.value
        else f.value := by
  obtain ⟨⟨unsupported, safe⟩, found⟩ := Option.isSome_iff_exists.mp known
  have saved := Document.saved_of_mem original true named member
  have facts := option_settings found
  dsimp only
  rw [found, Option.getD_some]
  by_cases held : f.value ∈ unsupported
  · rw [adjust_unsupported found held] at saved
    have entry : (d.saved original true)[Field.name { f with value := safe }]? =
        some (String.ofList f.value) := saved
    rw [adjust_unsupported found held, if_pos held,
      adjust_safe (f := { f with value := safe }) found rfl, entry,
      adjust_undo (f := { f with value := safe }) found rfl entry]
    exact ⟨rfl, String.toList_ofList⟩
  · rw [if_neg held]
    by_cases same : f.value = safe
    · rw [adjust_safe found same] at saved
      rw [adjust_safe found same, if_pos same,
        adjust_safe (f := { f with value := f.value }) found same]
      refine ⟨by rw [← saved], ?_⟩
      cases entry : original[f.name]? with
      | none =>
          rw [entry] at saved
          rw [adjust_keep (f := { f with value := f.value }) found (.inr saved)]
          rfl
      | some old =>
          rw [entry] at saved
          rw [adjust_undo (f := { f with value := f.value }) found same saved]
          rfl
    · rw [adjust_third found ⟨held, same⟩, if_neg same,
        adjust_third (f := { f with value := f.value }) found ⟨held, same⟩,
        adjust_third (f := { f with value := f.value }) found ⟨held, same⟩]
      exact ⟨rfl, rfl⟩

/-- A further compatibility run keeps the file and the undo. -/
theorem transform_again {bytes edited : Bytes} {original saved : Undo} {changed : List String}
    (done : transform bytes original true = some (edited, saved, changed)) :
    transform edited saved true = some (edited, saved, []) := by
  obtain ⟨valid, d, parsed, rfl, rfl⟩ := transform_eq_some done
  have named := named_of_parse parsed
  have known := known_of_parse parsed
  have valid' := validUndo_saved valid named known true
  have again (f : Field) (member : f ∈ d.fields) :=
    (adjust_again original named member (known f member)).1
  have fields : (d.edited original true).fields =
      d.fields.map fun f => { f with value := (adjust original true f).2 } :=
    Document.fields_replace
  have sameDocument : (d.edited original true).edited (d.saved original true) true =
      d.edited original true := by
    apply Document.replace_self
    rw [fields]
    intro g member
    obtain ⟨f, inside, rfl⟩ := List.mem_map.mp member
    rw [again f inside]
  have sameUndo : (d.edited original true).saved (d.saved original true) true =
      d.saved original true := by
    apply Std.ExtTreeMap.ext_getElem?
    intro name
    by_cases inside : name ∈ d.fields.map Field.name
    · obtain ⟨f, member, rfl⟩ := List.mem_map.mp inside
      have next : { f with value := (adjust original true f).2 } ∈
          (d.edited original true).fields := by
        rw [fields]
        exact List.mem_map_of_mem member
      have second := Document.saved_of_mem (d.saved original true) true
        (Document.Named.replace named) next
      rw [again f member] at second
      rw [Document.saved_of_mem _ _ named member]
      exact second
    · have absent : name ∉ (d.edited original true).fields.map Field.name := by
        rw [fields, List.map_map]
        exact inside
      rw [Document.saved_of_notMem _ _ absent, Document.saved_of_notMem _ _ inside]
  have unchanged : (d.edited original true).changed (d.saved original true) true = ∅ := by
    unfold Document.changed
    have none : ((d.edited original true).fields.filter fun f =>
        decide ((adjust (d.saved original true) true f).2 ≠ f.value)) = [] := by
      apply List.filter_eq_nil_iff.mpr
      rw [fields]
      intro g member
      obtain ⟨f, inside, rfl⟩ := List.mem_map.mp member
      rw [again f inside]
      simp
    rw [none]
    rfl
  rw [transform_eq true valid' (parse_edited true valid parsed), sameDocument, sameUndo, unchanged]
  simp

/-- Compatibility on and off again gives the file back, where the undo of before says nothing of an
option that has its safe setting. -/
theorem transform_undone {bytes edited : Bytes} {original saved : Undo} {changed : List String}
    (done : transform bytes original true = some (edited, saved, changed))
    (fresh : ∀ d, parse bytes = some d → ∀ f ∈ d.fields,
      (option f.key).map Prod.snd = some f.value → original[f.name]? = none) :
    ∃ changed', transform edited saved false = some (bytes, ∅, changed') := by
  obtain ⟨valid, d, parsed, rfl, rfl⟩ := transform_eq_some done
  have named := named_of_parse parsed
  have known := known_of_parse parsed
  have valid' := validUndo_saved valid named known true
  have back : (d.edited original true).edited (d.saved original true) false = d := by
    unfold Document.edited
    rw [Document.replace_replace]
    apply Document.replace_self
    intro f member
    rw [(adjust_again original named member (known f member)).2]
    obtain ⟨⟨unsupported, safe⟩, found⟩ := Option.isSome_iff_exists.mp (known f member)
    rw [found, Option.getD_some]
    split
    · rfl
    · split
      · next same =>
          have none := fresh d parsed f member (by rw [found, same]; rfl)
          rw [none]
          rfl
      · rfl
  have empty : (d.edited original true).saved (d.saved original true) false = ∅ :=
    Document.saved_off _ _
  refine ⟨((d.edited original true).changed (d.saved original true) false).keys, ?_⟩
  rw [transform_eq false valid' (parse_edited true valid parsed), back, empty,
    parse_bytes parsed]

end Flightdeck.GraphicsSettings
