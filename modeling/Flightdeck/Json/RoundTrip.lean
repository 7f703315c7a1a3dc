import Flightdeck.Json.Written

/-!
# What is written is read

The texts that `render` writes are JSON, and `decode` reads the value back with the order of its
members, however deep.
-/

namespace Flightdeck.OrderedJson

open StrictJson (Value Bytes Library DEPTH kind strict decode utf8)
open StrictJson.Library Texts

variable {F : Type} [Texts F]

/-! ## The texts -/

theorem blank_indent (depth : Nat) : (indent depth).all isBlank = true := by
  unfold indent
  induction depth with
  | zero => rfl
  | succ depth ih =>
    rw [List.replicate_succ, List.flatten_cons, List.all_append, ih]
    rfl

theorem blank_line (depth : Nat) : ('\n' :: indent depth).all isBlank = true := by
  rw [List.all_cons, blank_indent]
  rfl

/-- The items of an array as they are written: the last one is followed by the ending. -/
def itemsOf (depth : Nat) : List (Ordered F) → List Item
  | [] => []
  | [value] => [⟨'\n' :: indent (depth + 1), render value (depth + 1), '\n' :: indent depth⟩]
  | value :: next :: values =>
    ⟨'\n' :: indent (depth + 1), render value (depth + 1), []⟩ :: itemsOf depth (next :: values)

/-- The members of an object as they are written. -/
def membersOf (depth : Nat) : List (String × Ordered F) → List Member
  | [] => []
  | [field] => [⟨'\n' :: indent (depth + 1), field.1, [],
      ⟨" ".toList, render field.2 (depth + 1), '\n' :: indent depth⟩⟩]
  | field :: next :: fields => ⟨'\n' :: indent (depth + 1), field.1, [],
      ⟨" ".toList, render field.2 (depth + 1), []⟩⟩ :: membersOf depth (next :: fields)

theorem itemsOf_ne_nil {values : List (Ordered F)} (some : values ≠ []) (depth : Nat) :
    itemsOf depth values ≠ [] := by
  match values with
  | [] => exact absurd rfl some
  | [value] => simp [itemsOf]
  | value :: next :: values => simp [itemsOf]

theorem membersOf_ne_nil {fields : List (String × Ordered F)} (some : fields ≠ []) (depth : Nat) :
    membersOf depth fields ≠ [] := by
  match fields with
  | [] => exact absurd rfl some
  | [field] => simp [membersOf]
  | field :: next :: fields => simp [membersOf]

theorem joined_cons (part : List Char) {parts : List (List Char)} (some : parts ≠ []) :
    joined (part :: parts) = part ++ ',' :: joined parts := by
  cases parts with
  | nil => exact absurd rfl some
  | cons next parts => rfl

theorem renderItems_joined {values : List (Ordered F)} (some : values ≠ []) (depth : Nat) :
    renderItems values true depth ++ ending false depth =
      joined ((itemsOf depth values).map Item.chars) := by
  induction values with
  | nil => exact absurd rfl some
  | cons value values ih =>
    cases values with
    | nil => simp [renderItems, itemsOf, joined, Item.chars, separator, ending]
    | cons next values =>
      have rest := ih (by simp)
      rw [itemsOf, List.map_cons, joined_cons _ (by
        have more := itemsOf_ne_nil (List.cons_ne_nil next values) depth
        simpa using more), ← rest]
      simp [renderItems, Item.chars, separator]

theorem renderFields_joined {fields : List (String × Ordered F)} (some : fields ≠ [])
    (depth : Nat) : renderFields fields true depth ++ ending false depth =
      joined ((membersOf depth fields).map (Member.chars F)) := by
  induction fields with
  | nil => exact absurd rfl some
  | cons field fields ih =>
    have ⟨key, value⟩ := field
    cases fields with
    | nil =>
      simp [renderFields, renderField, membersOf, joined, Member.chars, Item.chars, separator,
        ending]
    | cons next fields =>
      have rest := ih (by simp)
      rw [membersOf, List.map_cons, joined_cons _ (by
        have more := membersOf_ne_nil (List.cons_ne_nil next fields) depth
        simpa using more), ← rest]
      simp [renderFields, renderField, Member.chars, Item.chars, separator]

theorem mem_itemsOf {values : List (Ordered F)} {depth : Nat} :
    ∀ item ∈ itemsOf depth values, item.Spaced ∧
      ∃ value ∈ values, item.text = render value (depth + 1) := by
  induction values with
  | nil => simp [itemsOf]
  | cons value values ih =>
    intro item there
    cases values with
    | nil =>
      have same : item = _ := List.mem_singleton.mp there
      subst same
      exact ⟨⟨blank_line _, blank_line _⟩, value, List.mem_cons_self .., rfl⟩
    | cons next values =>
      rcases List.mem_cons.mp there with same | there
      · subst same
        exact ⟨⟨blank_line _, rfl⟩, value, List.mem_cons_self .., rfl⟩
      · have ⟨spaced, value, inside, same⟩ := ih item there
        exact ⟨spaced, value, List.mem_cons_of_mem _ inside, same⟩

theorem mem_membersOf {fields : List (String × Ordered F)} {depth : Nat} :
    ∀ member ∈ membersOf depth fields, member.Spaced ∧
      ∃ field ∈ fields, member.value.text = render field.2 (depth + 1) := by
  induction fields with
  | nil => simp [membersOf]
  | cons field fields ih =>
    intro member there
    cases fields with
    | nil =>
      have same : member = _ := List.mem_singleton.mp there
      subst same
      exact ⟨⟨blank_line _, rfl, rfl, blank_line _⟩, field, List.mem_cons_self .., rfl⟩
    | cons next fields =>
      rcases List.mem_cons.mp there with same | there
      · subst same
        exact ⟨⟨blank_line _, rfl, rfl, rfl⟩, field, List.mem_cons_self .., rfl⟩
      · have ⟨spaced, field, inside, same⟩ := ih member there
        exact ⟨spaced, field, List.mem_cons_of_mem _ inside, same⟩

theorem texts_itemsOf (values : List (Ordered F)) (depth : Nat) :
    (itemsOf depth values).map Item.text = values.map fun value => render value (depth + 1) := by
  induction values with
  | nil => rfl
  | cons value values ih =>
    cases values with
    | nil => rfl
    | cons next values =>
      rw [itemsOf, List.map_cons, ih]
      rfl

theorem texts_membersOf (fields : List (String × Ordered F)) (depth : Nat) :
    (membersOf depth fields).map (fun member => (member.key, member.value.text)) =
      fields.map fun field => (field.1, render field.2 (depth + 1)) := by
  induction fields with
  | nil => rfl
  | cons field fields ih =>
    cases fields with
    | nil => rfl
    | cons next fields =>
      rw [membersOf, List.map_cons, ih]
      rfl

theorem render_array {values : List (Ordered F)} (some : values ≠ []) (depth : Nat) :
    render (.array values) depth = bracketed (joined ((itemsOf depth values).map Item.chars)) := by
  have full : values.isEmpty = false := by simpa using some
  rw [render, full, renderItems_joined some]
  rfl

theorem render_object {fields : List (String × Ordered F)} (some : fields ≠ []) (depth : Nat) :
    render (.object fields) depth =
      braced (joined ((membersOf depth fields).map (Member.chars F))) := by
  have full : fields.isEmpty = false := by simpa using some
  rw [render, full, renderFields_joined some]
  rfl

/-- What is written is JSON. -/
theorem json_render [Spells F] {o : Ordered F} (good : Good o) :
    ∀ depth, Json F (render o depth) := by
  induction good with
  | null => exact fun _ => .null
  | bool b =>
    intro _
    cases b with
    | true => exact .true
    | false => exact .false
  | integer fine _ => exact fun _ => .number fine
  | float f => exact fun _ => .number (isNumber_floatText f)
  | string text => exact fun _ => .string text
  | @array values fine ih =>
    intro depth
    by_cases empty : values = []
    · subst empty
      have none_there : Json F (bracketed []) := .noItems rfl
      exact none_there
    · rw [render_array empty]
      apply Json.array (itemsOf_ne_nil empty depth)
      · exact fun item there => (mem_itemsOf item there).1
      · intro item there
        have ⟨_, value, inside, same⟩ := mem_itemsOf item there
        rw [same]
        exact ih value inside (depth + 1)
  | @object fields distinct fine ih =>
    intro depth
    by_cases empty : fields = []
    · subst empty
      have none_there : Json F (braced []) := .noMembers rfl
      exact none_there
    · rw [render_object empty]
      apply Json.object (membersOf_ne_nil empty depth)
      · exact fun member there => (mem_membersOf member there).1
      · intro member there
        have ⟨_, field, inside, same⟩ := mem_membersOf member there
        rw [same]
        exact ih field inside (depth + 1)

/-! ## Reading -/

theorem length_joined {parts : List (List Char)} :
    ∀ part ∈ parts, part.length ≤ (joined parts).length := by
  induction parts with
  | nil => simp
  | cons first parts ih =>
    intro part there
    cases parts with
    | nil =>
      rw [List.mem_singleton.mp there]
      exact Nat.le_refl _
    | cons next parts =>
      rw [joined_cons first (by simp), List.length_append, List.length_cons]
      rcases List.mem_cons.mp there with rfl | there
      · omega
      · have shorter := ih part there
        omega

theorem item_shorter {values : List (Ordered F)} {value : Ordered F} (there : value ∈ values)
    (depth : Nat) :
    (render value (depth + 1)).length < (render (.array values) depth).length := by
  have some : values ≠ [] := List.ne_nil_of_mem there
  have listed : render value (depth + 1) ∈ (itemsOf depth values).map Item.text := by
    rw [texts_itemsOf]
    exact List.mem_map.mpr ⟨value, there, rfl⟩
  have ⟨item, inside, same⟩ := List.mem_map.mp listed
  have shorter := length_joined item.chars (List.mem_map.mpr ⟨item, inside, rfl⟩)
  have part : item.text.length ≤ item.chars.length := by
    unfold Item.chars
    simp only [List.length_append]
    omega
  rw [render_array some, ← same]
  unfold bracketed
  simp only [List.length_cons, List.length_append]
  omega

theorem member_shorter {fields : List (String × Ordered F)} {field : String × Ordered F}
    (there : field ∈ fields) (depth : Nat) :
    (render field.2 (depth + 1)).length < (render (.object fields) depth).length := by
  have some : fields ≠ [] := List.ne_nil_of_mem there
  have listed : (field.1, render field.2 (depth + 1)) ∈
      (membersOf depth fields).map fun member => (member.key, member.value.text) := by
    rw [texts_membersOf]
    exact List.mem_map.mpr ⟨field, there, rfl⟩
  have ⟨member, inside, same⟩ := List.mem_map.mp listed
  have text : member.value.text = render field.2 (depth + 1) := congrArg Prod.snd same
  have shorter := length_joined (member.chars F) (List.mem_map.mpr ⟨member, inside, rfl⟩)
  have part : member.value.text.length ≤ (member.chars F).length := by
    unfold Member.chars Item.chars
    simp only [List.length_append, List.length_cons]
    omega
  rw [render_object some, ← text]
  unfold braced
  simp only [List.length_cons, List.length_append]
  omega

theorem kind_ofList (c : Char) (text : List Char) : kind (String.ofList (c :: text)) =
    if c = '\x7b' then .object else if c = '[' then .array else .scalar := by
  unfold kind
  rw [String.toList_ofList, List.head?_cons]
  by_cases brace : c = '\x7b'
  · simp [brace]
  · by_cases bracket : c = '['
    · simp [bracket]
    · rw [if_neg brace, if_neg bracket]
      split
      · simp_all
      · simp_all
      · rfl

/-- A number begins with its sign or a digit. -/
theorem kind_number {text : List Char} (number : isNumber text = true) :
    kind (String.ofList text) = .scalar := by
  cases text with
  | nil => cases number
  | cons c text =>
    have other : c ≠ '\x7b' ∧ c ≠ '[' := by
      apply And.intro
      · intro same
        subst same
        cases number
      · intro same
        subst same
        cases number
    rw [kind_ofList, if_neg other.1, if_neg other.2]

section reading

variable [Library]

/-- The numbers that the reader admits. -/
def Finite (value : Value) : Prop := Numbers (fun text => isFinite text = true) value

variable [Documented F]

theorem kind_quote (text : String) : kind (String.ofList (quote F text)) = .scalar := by
  have head := Documented.quote_head (F := F) text
  cases quoted : quote F text with
  | nil =>
    rw [quoted] at head
    cases head
  | cons c rest =>
    rw [quoted, List.head?_cons, Option.some.injEq] at head
    subst head
    rw [kind_ofList]
    rfl

theorem items_render (values : List (Ordered F)) [Spells F] (good : ∀ value ∈ values, Good value)
    (depth : Nat) : items (String.ofList (render (.array values) depth)) =
      some (values.map fun value => String.ofList (render value (depth + 1))) := by
  by_cases empty : values = []
  · subst empty
    exact Documented.noItems (F := F) [] rfl
  · have texts := congrArg (List.map String.ofList) (texts_itemsOf values depth)
    rw [List.map_map, List.map_map] at texts
    have read := Documented.someItems (F := F) (itemsOf depth values)
      (itemsOf_ne_nil empty depth) (fun item there => (mem_itemsOf item there).1)
      (fun item there => by
        have ⟨_, value, inside, same⟩ := mem_itemsOf item there
        rw [same]
        exact json_render (good value inside) (depth + 1))
    rw [render_array empty, read]
    exact congrArg some texts

theorem members_render (fields : List (String × Ordered F)) [Spells F]
    (good : ∀ field ∈ fields, Good field.2) (depth : Nat) :
    members (String.ofList (render (.object fields) depth)) =
      some (fields.map fun field => (field.1, String.ofList (render field.2 (depth + 1)))) := by
  by_cases empty : fields = []
  · subst empty
    exact Documented.noMembers (F := F) [] rfl
  · have texts := congrArg (List.map fun row : String × List Char => (row.1, String.ofList row.2))
      (texts_membersOf fields depth)
    rw [List.map_map, List.map_map] at texts
    have read := Documented.someMembers (F := F) (membersOf depth fields)
      (membersOf_ne_nil empty depth) (fun member there => (mem_membersOf member there).1)
      (fun member there => by
        have ⟨_, field, inside, same⟩ := mem_membersOf member there
        rw [same]
        exact json_render (good field inside) (depth + 1))
    rw [render_object empty, read]
    exact congrArg some texts

/-- What is written is read, with as much fuel as it has characters.  By induction on the value. -/
theorem strict_render [Spells F] {o : Ordered F} (good : Good o) : Finite (written o) →
    ∀ depth fuel, (render o depth).length < fuel →
      strict fuel (String.ofList (render o depth)) = some (written o) := by
  induction good with
  | null =>
    intro _ depth fuel enough
    have ⟨left, same⟩ := Nat.exists_eq_succ_of_ne_zero (Nat.ne_zero_of_lt enough)
    subst same
    have shape : kind "null" = .scalar := rfl
    exact (StrictJson.strict_scalar shape).mpr ⟨Documented.null F, rfl⟩
  | bool b =>
    intro _ depth fuel enough
    have ⟨left, same⟩ := Nat.exists_eq_succ_of_ne_zero (Nat.ne_zero_of_lt enough)
    subst same
    have read := Documented.bool (F := F) b
    cases b with
    | true =>
      have shape : kind "true" = .scalar := rfl
      exact (StrictJson.strict_scalar shape).mpr ⟨read, rfl⟩
    | false =>
      have shape : kind "false" = .scalar := rfl
      exact (StrictJson.strict_scalar shape).mpr ⟨read, rfl⟩
  | @integer text fine _ =>
    intro finite depth fuel enough
    have ⟨left, same⟩ := Nat.exists_eq_succ_of_ne_zero (Nat.ne_zero_of_lt enough)
    subst same
    cases finite with
    | number finite =>
      have shape : kind (String.ofList text.toList) = .scalar := kind_number fine
      rw [render, StrictJson.strict_scalar shape, String.ofList_toList]
      exact ⟨Documented.number (F := F) text fine, finite⟩
  | float f =>
    intro finite depth fuel enough
    have ⟨left, same⟩ := Nat.exists_eq_succ_of_ne_zero (Nat.ne_zero_of_lt enough)
    subst same
    cases finite with
    | number finite =>
      have fine := isNumber_floatText f
      rw [render, StrictJson.strict_scalar (kind_number fine)]
      refine ⟨Documented.number (F := F) _ ?_, finite⟩
      rw [String.toList_ofList]
      exact fine
  | string text =>
    intro _ depth fuel enough
    have ⟨left, same⟩ := Nat.exists_eq_succ_of_ne_zero (Nat.ne_zero_of_lt enough)
    subst same
    rw [render, StrictJson.strict_scalar (kind_quote text)]
    exact ⟨Documented.string text, rfl⟩
  | @array values fine ih =>
    intro finite depth fuel enough
    have ⟨left, same⟩ := Nat.exists_eq_succ_of_ne_zero (Nat.ne_zero_of_lt enough)
    subst same
    rw [written, writtenItems_eq] at finite
    cases finite with
    | array finite =>
      have shape : kind (String.ofList (render (.array values) depth)) = .array := by
        rw [render, kind_ofList]
        rfl
      rw [StrictJson.strict_array shape, written, writtenItems_eq]
      refine ⟨_, _, items_render values fine depth, rfl, ?_⟩
      rw [List.forall₂_map_left_iff, List.forall₂_map_right_iff]
      apply List.forall₂_same.mpr
      intro value there
      have shorter := item_shorter there depth
      exact ih value there (finite _ (List.mem_map.mpr ⟨value, there, rfl⟩)) (depth + 1) left
        (by omega)
  | @object fields distinct fine ih =>
    intro finite depth fuel enough
    have ⟨left, same⟩ := Nat.exists_eq_succ_of_ne_zero (Nat.ne_zero_of_lt enough)
    subst same
    rw [written, writtenFields_eq] at finite
    cases finite with
    | object finite =>
      have shape : kind (String.ofList (render (.object fields) depth)) = .object := by
        rw [render, kind_ofList]
        rfl
      rw [StrictJson.strict_object shape, written, writtenFields_eq]
      refine ⟨_, _, members_render fields fine depth, rfl, ?_, ?_⟩
      · rw [List.map_map]
        exact distinct
      · rw [List.forall₂_map_left_iff, List.forall₂_map_right_iff]
        apply List.forall₂_same.mpr
        intro field there
        have shorter := member_shorter there depth
        exact ⟨rfl, ih field there (finite _ (List.mem_map.mpr ⟨field, there, rfl⟩)) (depth + 1)
          left (by omega)⟩

theorem decode_written [Spells F] {o : Ordered F} (good : Good o) (finite : Finite (written o)) :
    decode (encodedOrdered o) = some (written o) := by
  have captured := Documented.capture (F := F) [] (render o 0) ['\n'] rfl (json_render good 0) rfl
  have text : decode (encodedOrdered o) = strict ((String.ofList (render o 0)).length + 1)
      (String.ofList (render o 0)) := by
    unfold decode encodedOrdered
    rw [List.nil_append] at captured
    show capture (utf8 (String.ofList (render o 0 ++ ['\n']))) >>= _ = _
    rw [captured]
    rfl
  rw [text]
  exact strict_render good finite 0 _ (by simp)

omit [Documented F] in
/-- A floating-point number is written as a finite one. -/
theorem finite_written [Spells F] {value : Value} (sound : Sound value)
    (known : ∀ text, isFinite text = (asFinite (F := F) text).isSome) (finite : Finite value) :
    ∀ {o : Ordered F}, fromValue value = some o → Finite (written o) := by
  induction sound with
  | null =>
    intro o read
    cases read
    exact .null
  | bool b =>
    intro o read
    cases read
    exact .bool b
  | number fine =>
    intro o read
    rcases isIntegral_or_asFinite read with ⟨_, same⟩ | ⟨_, f, _, same⟩
    · rw [same]
      exact finite
    · rw [same]
      apply Numbers.number
      rw [known, asFinite_floatText]
      rfl
  | string text =>
    intro o read
    cases read
    exact .string text
  | array fine ih =>
    intro o read
    obtain ⟨os, found, same⟩ := Option.map_eq_some_iff.mp read
    rw [fromValues_eq] at found
    rw [← same, written, writtenItems_eq]
    apply Numbers.array
    intro value there
    obtain ⟨o', inside, same⟩ := List.mem_map.mp there
    obtain ⟨value', inside', first⟩ := forall₂_right found o' inside
    rw [← same]
    cases finite with
    | array finite => exact ih value' inside' (finite value' inside') first
  | object distinct fine ih =>
    intro o read
    obtain ⟨os, found, same⟩ := Option.map_eq_some_iff.mp read
    rw [fromFields_eq] at found
    rw [← same, written, writtenFields_eq]
    apply Numbers.object
    intro field there
    obtain ⟨o', inside, same⟩ := List.mem_map.mp there
    obtain ⟨field', inside', _, first⟩ := forall₂_right found o' inside
    rw [← same]
    cases finite with
    | object finite => exact ih field' inside' (finite field' inside') first

omit [Documented F] in
theorem fromValue_finite {value : Value} (sound : Sound value)
    (known : ∀ text, isFinite text = (asFinite (F := F) text).isSome) (finite : Finite value) :
    ∃ o : Ordered F, fromValue value = some o := by
  apply fromValue_some sound
  clear sound
  induction finite with
  | null => exact .null
  | bool b => exact .bool b
  | @number text finite => exact .number (.inr (by rw [← known, finite]))
  | string text => exact .string text
  | array _ ih => exact .array ih
  | object _ ih => exact .object ih

end reading

theorem fromValue_integral {value : Value} (sound : Sound value) (integral : Integral value) :
    ∃ o : Ordered F, fromValue value = some o := by
  apply fromValue_some sound
  clear sound
  induction integral with
  | null => exact .null
  | bool b => exact .bool b
  | number integral => exact .number (.inl integral)
  | string text => exact .string text
  | array _ ih => exact .array ih
  | object _ ih => exact .object ih

theorem Numbers.mono {P Q : String → Prop} {value : Value} (all : Numbers P value)
    (weaker : ∀ text, P text → Q text) : Numbers Q value := by
  induction all with
  | null => exact .null
  | bool b => exact .bool b
  | number holds => exact .number (weaker _ holds)
  | string text => exact .string text
  | array _ ih => exact .array ih
  | object _ ih => exact .object ih

/-- A reader that admits every number. -/
@[reducible] def admitting (library : Library) : Library := { library with isFinite _ := true }

theorem documented_admitting {library : Library} (documented : @Documented F _ library) :
    @Documented F _ (admitting library) :=
  @Documented.mk F _ (admitting library) documented.quote_head documented.capture
    documented.noItems documented.someItems documented.noMembers documented.someMembers
    documented.null documented.bool documented.number documented.string

/-- Values without floating-point numbers that are written alike are the same, also where a number
is too large to be read. -/
theorem encoded_injective [library : Library] [documented : Documented F] [Spells F]
    {value value' : Value} (sound : Sound value) (sound' : Sound value')
    (integral : Integral value) (integral' : Integral value')
    (same : encoded F value = encoded F value') : value = value' := by
  have ⟨o, read⟩ := fromValue_integral (F := F) sound integral
  have ⟨o', read'⟩ := fromValue_integral (F := F) sound' integral'
  have all : ∀ {value : Value}, Integral value → @Finite (admitting library) value :=
    fun integral => Numbers.mono integral fun _ _ => rfl
  have decoded : ∀ {value : Value} {o : Ordered F}, Sound value → Integral value →
      fromValue value = some o → @decode (admitting library) (encodedOrdered o) = some value := by
    intro value o sound integral read
    have back := written_integral sound integral read
    have decoded := @decode_written F _ (admitting library) (documented_admitting documented) _ o
      (good_of_sound sound read) (by
        rw [back]
        exact all integral)
    rw [decoded, back]
  unfold encoded at same
  rw [read, read', Option.map_some, Option.map_some, Option.some.injEq] at same
  have first := decoded sound integral read
  rw [same, decoded sound' integral' read'] at first
  exact (Option.some.inj first).symm

theorem find_report {fields : List (String × Value)} {os : List (String × Ordered F)}
    (read : List.Forall₂ (fun field o => field.1 = o.1 ∧ fromValue field.2 = some o.2) fields os)
    {key : String} {value : Value} (there : fields.lookup key = some value) :
    ∃ entry, os.find? (·.1 == key) = some entry ∧ fromValue value = some entry.2 := by
  induction read with
  | nil => cases there
  | @cons field o fields os first rest ih =>
    have ⟨key', value'⟩ := field
    rw [List.lookup_cons] at there
    have keys : key' = o.1 := first.1
    cases equal : key == key' with
    | true =>
      rw [equal] at there
      have value_eq : value' = value := Option.some.inj there
      have same : key = key' := by simpa using equal
      subst value_eq
      exact ⟨o, List.find?_cons_of_pos (by simp [← keys, same]), first.2⟩
    | false =>
      rw [equal] at there
      have other : key ≠ key' := by simpa using equal
      have ⟨entry, found, known⟩ := ih there
      apply Exists.intro entry
      apply And.intro _ known
      rw [List.find?_cons_of_neg (by simpa [← keys] using Ne.symm other)]
      exact found

/-- A value is read back as it was written, in its own order and at any depth, if its integers are
finite as floating-point numbers; and the report of a draft is written as it stands there. -/
theorem ordered_round_trip (F : Type) [Texts F] [Spells F] [Library] [Documented F]
    (known : ∀ text, isFinite text = (asFinite (F := F) text).isSome) {value : Value}
    (sound : Sound value) :
    (Integral value → Finite value → ∃ bytes, encoded F value = some bytes ∧
      decode bytes = some value ∧ (decode bytes).bind (encoded F) = some bytes) ∧
    (∀ value', Sound value' → Integral value → Integral value' →
      encoded F value = encoded F value' → value = value') ∧
    (∀ fields report, value = .object fields → fields.lookup "report" = some report →
      Finite value → ∃ draft bytes, encoded F value = some draft ∧
        encoded F report = some bytes ∧ reportBytes F draft = some bytes) := by
  apply And.intro
  · intro integral finite
    have ⟨o, read⟩ := fromValue_integral (F := F) sound integral
    have back := written_integral sound integral read
    have encodes : encoded F value = some (encodedOrdered o) := by
      unfold encoded
      rw [read]
      rfl
    have decodes : decode (encodedOrdered o) = some value := by
      rw [decode_written (good_of_sound sound read) (by rw [back]; exact finite), back]
    exact ⟨encodedOrdered o, encodes, decodes, by rw [decodes]; exact encodes⟩
  · apply And.intro
    · intro value' sound' integral integral' same
      exact encoded_injective sound sound' integral integral' same
    · intro fields report shape there finite
      have ⟨o, read⟩ := fromValue_finite (F := F) sound known finite
      have decodes := decode_written (good_of_sound sound read)
        (finite_written sound known finite read)
      have again := fromValue_written (good_of_sound sound read)
      have ⟨os, found, same⟩ : ∃ os, fromFields fields = some os ∧ Ordered.object os = o := by
        rw [shape] at read
        exact Option.map_eq_some_iff.mp read
      have ⟨entry, first, taken⟩ := find_report ((fromFields_eq fields os).mp found) there
      refine ⟨encodedOrdered o, encodedOrdered entry.2, ?_, ?_, ?_⟩
      · unfold encoded
        rw [read]
        rfl
      · unfold encoded
        rw [taken]
        rfl
      · unfold reportBytes
        rw [decodes, Option.bind_eq_bind, Option.bind_some, again, ← same]
        show (os.find? (·.1 == "report")).bind _ = _
        rw [first]
        rfl

end Flightdeck.OrderedJson
