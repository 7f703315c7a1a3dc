import Mathlib.Data.List.Forall2
import Mathlib.Tactic

/-!
# Strict JSON

`strict_json.rs` decodes JSON level by level: each value is first captured as raw text, and an
object or array is opened on its own, so that duplicate keys are seen at every level.  The JSON
library is not part of the repository; what it reads of a text is a parameter.
-/

namespace Flightdeck.StrictJson

/-- `serde_json::Value`; a number keeps its text, and an object the order of its members. -/
inductive Value where
  | null
  | bool (b : Bool)
  | number (text : String)
  | string (text : String)
  | array (items : List Value)
  | object (fields : List (String × Value))

abbrev Bytes := List UInt8

/-- What the library reads. -/
class Library where
  /-- the text of the one value that the bytes consist of, as `RawValue` captures it -/
  capture : Bytes → Option String
  /-- the members of an object: the keys unescaped, the values as their texts -/
  members : String → Option (List (String × String))
  items : String → Option (List String)
  /-- a text as a `Value`, with the levels that may still be opened -/
  parse : Nat → String → Option Value
  /-- whether a number is finite as `f64` -/
  isFinite : String → Bool

open Library

/-- The levels that the library opens. -/
def DEPTH := 128

/-- The keys by which the library passes numbers and raw values on. -/
def PRIVATE := ["$serde_json::private::Number", "$serde_json::private::RawValue"]

inductive Kind where
  | object | array | scalar
  deriving DecidableEq

/-- The first byte of a text. -/
def kind (text : String) : Kind :=
  match text.toList.head? with
  | some '\x7b' => .object
  | some '[' => .array
  | _ => .scalar

/-- `Map::insert`: a key that is there keeps its place. -/
def insert (fields : List (String × Value)) (key : String) (value : Value) :
    List (String × Value) :=
  if fields.any (·.1 == key) then
    fields.map fun field => if field.1 == key then (key, value) else field
  else fields ++ [(key, value)]

/-- What the library documents: a nested value is part of its text, a value takes one level for each
container, a scalar takes none, and of several members with one key the last counts. -/
class Lawful [Library] : Prop where
  member_shorter : ∀ text rows row, members text = some rows → row ∈ rows →
    row.2.length < text.length
  item_shorter : ∀ text rows row, items text = some rows → row ∈ rows → row.length < text.length
  scalar : ∀ depth text, kind text = .scalar → parse (depth + 1) text = parse DEPTH text
  array : ∀ depth text, kind text = .array → parse (depth + 2) text = do
    let rows ← items text
    return .array (← rows.mapM (parse (depth + 1)))
  object : ∀ depth text rows, kind text = .object → members text = some rows →
    (∀ row, rows.head? = some row → row.1 ∉ PRIVATE) → parse (depth + 2) text = do
      let values ← rows.mapM fun row => parse (depth + 1) row.2
      return .object (((rows.map Prod.fst).zip values).foldl (fun fields field =>
        insert fields field.1 field.2) [])

/-- `serde_json::from_slice::<Value>` -/
def fromSlice [Library] (bytes : Bytes) : Option Value := capture bytes >>= parse DEPTH

/-! ## `decode` -/

/-- `visit_map` -/
def visitMap (decode : String → Option Value) :
    List (String × Value) → List (String × String) → Option (List (String × Value))
  | fields, [] => some fields
  | fields, (key, text) :: rows => do
    let value ← decode text
    if fields.any (·.1 == key) then none
    else visitMap decode (insert fields key value) rows

/-- `visit_seq` -/
def visitSeq (decode : String → Option Value) : List Value → List String → Option (List Value)
  | values, [] => some values
  | values, text :: rows => do
    let value ← decode text
    visitSeq decode (values ++ [value]) rows

/-! ## One level -/

theorem insert_new {fields : List (String × Value)} {key : String}
    (absent : key ∉ fields.map Prod.fst) (value : Value) :
    insert fields key value = fields ++ [(key, value)] := by
  apply if_neg
  simpa using absent

/-- The members of an object are read in order, and no key is there already. -/
theorem visitMap_eq (read : String → Option Value) (rows : List (String × String))
    (fields result : List (String × Value)) : visitMap read fields rows = some result ↔
      (∀ row ∈ rows, row.1 ∉ fields.map Prod.fst) ∧ (rows.map Prod.fst).Nodup ∧
        ∃ added, List.Forall₂ (fun row field => field.1 = row.1 ∧ read row.2 = some field.2)
          rows added ∧ result = fields ++ added := by
  induction rows generalizing fields with
  | nil =>
    simp only [visitMap, List.forall₂_nil_left_iff]
    constructor
    · intro same
      simp_all
    · rintro ⟨_, _, added, rfl, same⟩
      simp [same]
  | cons row rows ih =>
    show (read row.2 >>= fun value => if fields.any (·.1 == row.1) then none
      else visitMap read (insert fields row.1 value) rows) = some result ↔ _
    cases value : read row.2 with
    | none =>
      constructor
      · nofun
      · rintro ⟨_, _, added, members, _⟩
        cases members with
        | cons head _ => exact absurd (value.symm.trans head.2) nofun
    | some value' =>
      by_cases present : row.1 ∈ fields.map Prod.fst
      · have any : fields.any (·.1 == row.1) = true := by simpa using present
        rw [Option.bind_eq_bind, Option.bind_some, if_pos any]
        constructor
        · nofun
        · intro facts
          exact absurd present (facts.1 row (List.mem_cons_self ..))
      · have any : ¬ fields.any (·.1 == row.1) = true := by simpa using present
        rw [Option.bind_eq_bind, Option.bind_some, if_neg any, insert_new present, ih]
        constructor
        · rintro ⟨absent, distinct, added, members, same⟩
          have apart : row.1 ∉ rows.map Prod.fst := by
            intro twice
            obtain ⟨other, there, same⟩ := List.mem_map.mp twice
            exact absent other there (by simp [same])
          refine ⟨?_, List.nodup_cons.mpr ⟨apart, distinct⟩, (row.1, value') :: added,
            .cons ⟨rfl, value⟩ members, by simp [same]⟩
          intro other there
          rcases List.mem_cons.mp there with rfl | there
          · exact present
          · intro twice
            apply absent other there
            rw [List.map_append, List.mem_append]
            exact .inl twice
        · rintro ⟨absent, distinct, added, members, same⟩
          cases members with
          | cons head members =>
            rename_i field added
            have distinct := List.nodup_cons.mp distinct
            have field_eq : field = (row.1, value') :=
              Prod.ext head.1 (Option.some.inj (head.2.symm.trans value))
            refine ⟨?_, distinct.2, added, members, by simp [same, field_eq]⟩
            intro other there twice
            simp only [List.map_append, List.map_cons, List.map_nil, List.mem_append,
              List.mem_singleton] at twice
            rcases twice with twice | twice
            · exact absent other (List.mem_cons_of_mem _ there) twice
            · exact distinct.1 (twice ▸ List.mem_map_of_mem there)

/-- The items of an array are read in order. -/
theorem visitSeq_eq (read : String → Option Value) (rows : List String)
    (values result : List Value) : visitSeq read values rows = some result ↔
      ∃ added, List.Forall₂ (fun row value => read row = some value) rows added ∧
        result = values ++ added := by
  induction rows generalizing values with
  | nil =>
    simp only [visitSeq, List.forall₂_nil_left_iff]
    constructor
    · intro same
      simp_all
    · rintro ⟨added, rfl, same⟩
      simp [same]
  | cons row rows ih =>
    show (read row >>= fun value => visitSeq read (values ++ [value]) rows) = some result ↔ _
    cases value : read row with
    | none =>
      constructor
      · nofun
      · rintro ⟨added, members, _⟩
        cases members with
        | cons head _ => exact absurd (value.symm.trans head) nofun
    | some value' =>
      rw [Option.bind_eq_bind, Option.bind_some, ih]
      constructor
      · rintro ⟨added, members, same⟩
        exact ⟨value' :: added, .cons value members, by simp [same]⟩
      · rintro ⟨added, members, same⟩
        cases members with
        | cons head members =>
          rename_i first added
          cases Option.some.inj (head.symm.trans value)
          exact ⟨added, members, by simp [same]⟩

/-- The keys of the fields are those of the members. -/
theorem keys_eq {rows : List (String × String)} {fields : List (String × Value)}
    {P : String × String → String × Value → Prop}
    (read : List.Forall₂ (fun row field => field.1 = row.1 ∧ P row field) rows fields) :
    fields.map Prod.fst = rows.map Prod.fst := by
  induction read with
  | nil => rfl
  | cons head _ ih => rw [List.map_cons, List.map_cons, head.1, ih]

theorem exists_forall₂ {α β : Type} {R : α → β → Prop} {rows : List α} :
    (∃ added, List.Forall₂ R rows added) ↔ ∀ row ∈ rows, ∃ value, R row value := by
  induction rows with
  | nil => simp
  | cons row rows ih =>
    constructor
    · rintro ⟨added, members⟩
      cases members with
      | cons head members =>
        intro other there
        rcases List.mem_cons.mp there with rfl | there
        · exact ⟨_, head⟩
        · exact ih.mp ⟨_, members⟩ other there
    · intro all
      have ⟨value, head⟩ := all row (List.mem_cons_self ..)
      have ⟨added, members⟩ := ih.mpr fun other there => all other (List.mem_cons_of_mem _ there)
      exact ⟨value :: added, .cons head members⟩

theorem mapM_of_forall₂ {α β : Type} {read : α → Option β} {rows : List α} {values : List β}
    (all : List.Forall₂ (fun row value => read row = some value) rows values) :
    rows.mapM read = some values := by
  induction all with
  | nil => rfl
  | cons head _ ih => simp [List.mapM_cons, head, ih]

/-- Members with different keys are inserted one after the other. -/
theorem foldl_insert {added : List (String × Value)} (fields : List (String × Value))
    (distinct : ((fields ++ added).map Prod.fst).Nodup) :
    added.foldl (fun fields field => insert fields field.1 field.2) fields = fields ++ added := by
  induction added generalizing fields with
  | nil => simp
  | cons field added ih =>
    have absent : field.1 ∉ fields.map Prod.fst := by
      intro there
      rw [List.map_append, List.map_cons] at distinct
      exact (List.nodup_append.mp distinct).2.2 _ there _ (List.mem_cons_self ..) rfl
    rw [List.foldl_cons, insert_new absent, ih _ (by simpa using distinct)]
    simp

/-! ## A text -/

section accepted

variable [Library]

/-- The numbers that are refused. -/
def admissible : Value → Bool
  | .number text => isFinite text
  | _ => true

/-- `Strict::deserialize`; a text has no more levels than characters. -/
def strict : Nat → String → Option Value
  | 0, _ => none
  | fuel + 1, text =>
    match kind text with
    | .object => do
      let rows ← members text
      return .object (← visitMap (strict fuel) [] rows)
    | .array => do
      let rows ← items text
      return .array (← visitSeq (strict fuel) [] rows)
    | .scalar => do
      let value ← parse DEPTH text
      if admissible value then some value else none

def decode (bytes : Bytes) : Option Value := do
  let text ← capture bytes
  strict (text.length + 1) text

/-! ## What is promised -/

/-- A text as a part of another, so many levels below it. -/
inductive Within : Nat → String → String → Prop
  | refl (text : String) : Within 0 text text
  | member {depth : Nat} {text part : String} {rows : List (String × String)}
      {row : String × String} : kind text = .object → members text = some rows → row ∈ rows →
      Within depth row.2 part → Within (depth + 1) text part
  | item {depth : Nat} {text part : String} {rows : List String} {row : String} :
      kind text = .array → items text = some rows → row ∈ rows → Within depth row part →
      Within (depth + 1) text part

/-- A part reads as what it begins like. -/
def Reads (part : String) : Prop :=
  match kind part with
  | .object => (members part).isSome = true
  | .array => (items part).isSome = true
  | .scalar => (parse DEPTH part).isSome = true

/-- An object does not have a key twice. -/
def Unique (part : String) : Prop :=
  ∀ rows, kind part = .object → members part = some rows → (rows.map Prod.fst).Nodup

/-- A number is finite. -/
def Bounded (part : String) : Prop :=
  ∀ number, kind part = .scalar → parse DEPTH part = some (.number number) → isFinite number = true

/-- The text is JSON at every level. -/
def Valid (text : String) : Prop := ∀ depth part, Within depth text part → Reads part

/-- No object has a key twice. -/
def Distinct (text : String) : Prop := ∀ depth part, Within depth text part → Unique part

/-- Every number is finite. -/
def Finite (text : String) : Prop := ∀ depth part, Within depth text part → Bounded part

/-- An object does not begin with a key that the library uses for itself. -/
def Ordinary (part : String) : Prop :=
  ∀ rows row, kind part = .object → members part = some rows → rows.head? = some row →
    row.1 ∉ PRIVATE

/-- No object begins with a key that the library uses for itself. -/
def Plain (text : String) : Prop := ∀ depth part, Within depth text part → Ordinary part

/-- The library may open every container. -/
def Shallow (text : String) : Prop :=
  ∀ depth part, Within depth text part → kind part ≠ .scalar → depth + 1 < DEPTH

/-- The value that a text denotes: its scalars as the library reads them, its objects and arrays as
what they contain. -/
inductive Denotes : String → Value → Prop
  | object {text : String} {rows : List (String × String)} {fields : List (String × Value)} :
      kind text = .object → members text = some rows →
      fields.map Prod.fst = rows.map Prod.fst →
      (∀ pair ∈ rows.zip fields, Denotes pair.1.2 pair.2.2) → Denotes text (.object fields)
  | array {text : String} {rows : List String} {values : List Value} :
      kind text = .array → items text = some rows → values.length = rows.length →
      (∀ pair ∈ rows.zip values, Denotes pair.1 pair.2) → Denotes text (.array values)
  | scalar {text : String} {value : Value} : kind text = .scalar →
      parse DEPTH text = some value → Denotes text value

/-! ## Every level -/

section levels

variable {text : String}

/-- What holds of an object and of all parts of its values. -/
theorem within_object {P : String → Prop} {rows : List (String × String)}
    (shape : kind text = .object) (found : members text = some rows) :
    (∀ depth part, Within depth text part → P part) ↔
      P text ∧ ∀ row ∈ rows, ∀ depth part, Within depth row.2 part → P part := by
  constructor
  · intro all
    exact ⟨all 0 text (.refl text), fun row there depth part inside =>
      all (depth + 1) part (.member shape found there inside)⟩
  · intro all depth part inside
    cases inside with
    | refl => exact all.1
    | member _ same there inside =>
      cases Option.some.inj (same.symm.trans found)
      exact all.2 _ there _ _ inside
    | item other => exact absurd (other.symm.trans shape) nofun

/-- What holds of an array and of all parts of its items. -/
theorem within_array {P : String → Prop} {rows : List String} (shape : kind text = .array)
    (found : items text = some rows) :
    (∀ depth part, Within depth text part → P part) ↔
      P text ∧ ∀ row ∈ rows, ∀ depth part, Within depth row part → P part := by
  constructor
  · intro all
    exact ⟨all 0 text (.refl text), fun row there depth part inside =>
      all (depth + 1) part (.item shape found there inside)⟩
  · intro all depth part inside
    cases inside with
    | refl => exact all.1
    | member other => exact absurd (other.symm.trans shape) nofun
    | item _ same there inside =>
      cases Option.some.inj (same.symm.trans found)
      exact all.2 _ there _ _ inside

theorem within_scalar {P : String → Prop} (shape : kind text = .scalar) :
    (∀ depth part, Within depth text part → P part) ↔ P text := by
  constructor
  · exact fun all => all 0 text (.refl text)
  · intro holds depth part inside
    cases inside with
    | refl => exact holds
    | member other => exact absurd (other.symm.trans shape) nofun
    | item other => exact absurd (other.symm.trans shape) nofun

/-- The three conditions on one part. -/
def Sound (part : String) : Prop := Reads part ∧ Unique part ∧ Bounded part

theorem sound_iff :
    (∀ depth part, Within depth text part → Sound part) ↔
      Valid text ∧ Distinct text ∧ Finite text := by
  constructor
  · intro all
    exact ⟨fun depth part inside => (all depth part inside).1,
      fun depth part inside => (all depth part inside).2.1,
      fun depth part inside => (all depth part inside).2.2⟩
  · intro all depth part inside
    exact ⟨all.1 depth part inside, all.2.1 depth part inside, all.2.2 depth part inside⟩

theorem strict_object {fuel : Nat} {value : Value} (shape : kind text = .object) :
    strict (fuel + 1) text = some value ↔ ∃ rows fields, members text = some rows ∧
      value = .object fields ∧ (rows.map Prod.fst).Nodup ∧
        List.Forall₂ (fun row field => field.1 = row.1 ∧ strict fuel row.2 = some field.2)
          rows fields := by
  cases found : members text with
  | none => simp [strict, shape, found]
  | some rows =>
    have opened : strict (fuel + 1) text = (visitMap (strict fuel) [] rows).map Value.object := by
      simp [strict, shape, found, Option.map_eq_bind]
    rw [opened, Option.map_eq_some_iff]
    constructor
    · intro ⟨fields, visited, same⟩
      have ⟨_, distinct, added, read, shown⟩ := (visitMap_eq ..).mp visited
      exact ⟨rows, added, rfl, by rw [← same, shown, List.nil_append], distinct, read⟩
    · rintro ⟨_, fields, ⟨⟩, same, distinct, read⟩
      exact ⟨fields, (visitMap_eq ..).mpr ⟨by simp, distinct, fields, read, rfl⟩, same.symm⟩

theorem strict_array {fuel : Nat} {value : Value} (shape : kind text = .array) :
    strict (fuel + 1) text = some value ↔ ∃ rows values, items text = some rows ∧
      value = .array values ∧
        List.Forall₂ (fun row value => strict fuel row = some value) rows values := by
  cases found : items text with
  | none => simp [strict, shape, found]
  | some rows =>
    have opened : strict (fuel + 1) text = (visitSeq (strict fuel) [] rows).map Value.array := by
      simp [strict, shape, found, Option.map_eq_bind]
    rw [opened, Option.map_eq_some_iff]
    constructor
    · intro ⟨values, visited, same⟩
      have ⟨added, read, shown⟩ := (visitSeq_eq ..).mp visited
      exact ⟨rows, added, rfl, by rw [← same, shown, List.nil_append], read⟩
    · rintro ⟨_, values, ⟨⟩, same, read⟩
      exact ⟨values, (visitSeq_eq ..).mpr ⟨values, read, rfl⟩, same.symm⟩

theorem strict_scalar {fuel : Nat} {value : Value} (shape : kind text = .scalar) :
    strict (fuel + 1) text = some value ↔
      parse DEPTH text = some value ∧ admissible value = true := by
  cases read : parse DEPTH text with
  | none => simp [strict, shape, read]
  | some found =>
    cases fine : admissible found with
    | false =>
      have refused : strict (fuel + 1) text = none := by simp [strict, shape, read, fine]
      rw [refused]
      constructor
      · nofun
      · rintro ⟨same, other⟩
        cases same
        exact absurd (fine.symm.trans other) nofun
    | true =>
      have accepted : strict (fuel + 1) text = some found := by simp [strict, shape, read, fine]
      rw [accepted]
      constructor
      · rintro ⟨⟩
        exact ⟨rfl, fine⟩
      · exact fun same => same.1

/-- What is read is what the text denotes. -/
theorem strict_denotes {fuel : Nat} {value : Value} (read : strict fuel text = some value) :
    Denotes text value := by
  induction fuel generalizing text value with
  | zero => exact absurd read nofun
  | succ fuel ih =>
    cases shape : kind text with
    | object =>
      have ⟨rows, fields, found, same, _, members⟩ := (strict_object shape).mp read
      have ⟨_, pairs⟩ := List.forall₂_iff_zip.mp members
      subst same
      exact .object shape found (keys_eq members) fun pair there => ih (pairs there).2
    | array =>
      have ⟨rows, values, found, same, items⟩ := (strict_array shape).mp read
      have ⟨long, pairs⟩ := List.forall₂_iff_zip.mp items
      subst same
      exact .array shape found long.symm fun pair there => ih (pairs there)
    | scalar =>
      exact .scalar shape ((strict_scalar shape).mp read).1

end levels

variable [Lawful]

/-- A text is accepted exactly if every part of it is sound.  By induction on the fuel, which
suffices as every part is shorter than what it is a part of. -/
theorem strict_isSome {fuel : Nat} {text : String} (enough : text.length < fuel) :
    (strict fuel text).isSome = true ↔ ∀ depth part, Within depth text part → Sound part := by
  induction fuel generalizing text with
  | zero => omega
  | succ fuel ih =>
    rw [Option.isSome_iff_exists]
    cases shape : kind text with
    | object =>
      simp only [strict_object shape]
      cases found : members text with
      | none =>
        constructor
        · rintro ⟨_, rows, _, same, _⟩
          exact absurd same nofun
        · intro all
          have reads := (all 0 text (.refl text)).1
          simp [Reads, shape, found] at reads
      | some rows =>
        have below : ∀ row ∈ rows, (strict fuel row.2).isSome = true ↔
            ∀ depth part, Within depth row.2 part → Sound part := by
          intro row there
          have shorter := Lawful.member_shorter text rows row found there
          exact ih (by omega)
        have here : Sound text ↔ (rows.map Prod.fst).Nodup := by
          simp [Sound, Reads, Unique, Bounded, shape, found]
        rw [within_object shape found, here]
        constructor
        · rintro ⟨_, _, fields, ⟨⟩, _, distinct, read⟩
          refine ⟨distinct, fun row there => (below row there).mp ?_⟩
          have ⟨field, same⟩ := exists_forall₂.mp ⟨fields, read⟩ row there
          exact Option.isSome_iff_exists.mpr ⟨_, same.2⟩
        · intro ⟨distinct, all⟩
          have ⟨fields, read⟩ := exists_forall₂.mpr fun row there =>
            have ⟨value, read⟩ := Option.isSome_iff_exists.mp
              ((below row there).mpr (all row there))
            (⟨(row.1, value), rfl, read⟩ :
              ∃ field : String × Value, field.1 = row.1 ∧ strict fuel row.2 = some field.2)
          exact ⟨_, rows, fields, rfl, rfl, distinct, read⟩
    | array =>
      simp only [strict_array shape]
      cases found : items text with
      | none =>
        constructor
        · rintro ⟨_, rows, _, same, _⟩
          exact absurd same nofun
        · intro all
          have reads := (all 0 text (.refl text)).1
          simp [Reads, shape, found] at reads
      | some rows =>
        have below : ∀ row ∈ rows, (strict fuel row).isSome = true ↔
            ∀ depth part, Within depth row part → Sound part := by
          intro row there
          have shorter := Lawful.item_shorter text rows row found there
          exact ih (by omega)
        have here : Sound text := by
          simp [Sound, Reads, Unique, Bounded, shape, found]
        rw [within_array shape found]
        constructor
        · rintro ⟨_, _, values, ⟨⟩, _, read⟩
          refine ⟨here, fun row there => (below row there).mp ?_⟩
          exact Option.isSome_iff_exists.mpr (exists_forall₂.mp ⟨values, read⟩ row there)
        · intro ⟨_, all⟩
          have ⟨values, read⟩ := exists_forall₂.mpr fun row there =>
            Option.isSome_iff_exists.mp ((below row there).mpr (all row there))
          exact ⟨_, rows, values, rfl, rfl, read⟩
    | scalar =>
      simp only [strict_scalar shape]
      rw [within_scalar shape]
      cases read : parse DEPTH text with
      | none => simp [Sound, Reads, shape, read]
      | some value =>
        cases value with
        | number | null | bool | string | array | object =>
          simp [Sound, Reads, Unique, Bounded, admissible, shape, read]

/-- The library reads the same where it may open every container and takes no object for a number.
By induction on the fuel, for any number of levels left. -/
theorem strict_parse {fuel depth : Nat} {text : String} {value : Value}
    (read : strict fuel text = some value) (plain : Plain text)
    (shallow : ∀ below part, Within below text part → kind part ≠ .scalar → below < depth) :
    parse (depth + 1) text = some value := by
  induction fuel generalizing text value depth with
  | zero => exact absurd read nofun
  | succ fuel ih =>
    cases shape : kind text with
    | object =>
      have room := shallow 0 text (.refl text) (by simp [shape])
      have ⟨left, same⟩ := Nat.exists_eq_add_of_lt room
      have same : depth = left + 1 := by omega
      have ⟨rows, fields, found, object, distinct, members⟩ := (strict_object shape).mp read
      have ⟨long, pairs⟩ := List.forall₂_iff_zip.mp members
      have ⟨here, parts⟩ := (within_object shape found).mp plain
      subst same object
      have values : List.Forall₂ (fun row value => parse (left + 1) row.2 = some value) rows
          (fields.map Prod.snd) := by
        apply List.forall₂_map_right_iff.mpr
        apply List.forall₂_iff_zip.mpr
        refine ⟨long, fun {row field} there => ?_⟩
        have inside : row ∈ rows := (List.of_mem_zip there).1
        apply ih (pairs there).2 (parts row inside)
        intro below part within deep
        have := shallow (below + 1) part (.member shape found inside within) deep
        omega
      have keys := keys_eq members
      rw [Lawful.object left text rows shape found fun row first => here rows row shape found first,
        mapM_of_forall₂ values]
      show some (Value.object _) = some (.object fields)
      have apart : (([] ++ fields).map Prod.fst).Nodup := by
        rw [List.nil_append, keys]
        exact distinct
      rw [← keys, List.zip_map', List.map_id' fields, foldl_insert [] apart]
      rfl
    | array =>
      have room := shallow 0 text (.refl text) (by simp [shape])
      have ⟨left, same⟩ := Nat.exists_eq_add_of_lt room
      have same : depth = left + 1 := by omega
      have ⟨rows, values, found, array, items⟩ := (strict_array shape).mp read
      have ⟨long, pairs⟩ := List.forall₂_iff_zip.mp items
      have ⟨_, parts⟩ := (within_array shape found).mp plain
      subst same array
      have parsed : List.Forall₂ (fun row value => parse (left + 1) row = some value) rows
          values := by
        apply List.forall₂_iff_zip.mpr
        refine ⟨long, fun {row value} there => ?_⟩
        have inside : row ∈ rows := (List.of_mem_zip there).1
        apply ih (pairs there) (parts row inside)
        intro below part within deep
        have := shallow (below + 1) part (.item shape found inside within) deep
        omega
      rw [Lawful.array left text shape, found]
      show (rows.mapM (parse (left + 1)) >>= fun values => some (Value.array values)) = _
      rw [mapM_of_forall₂ parsed]
      rfl
    | scalar =>
      rw [Lawful.scalar depth text shape]
      exact ((strict_scalar shape).mp read).1

/-! ## `decode` -/

/-- Bytes are accepted exactly if they are JSON without a key twice in an object and without a
number that is not finite; the value is then the one that the text denotes, and what the library
reads of it, unless an object looks like one of the library's own or lies too deep for it. -/
theorem strict_decode (bytes : Bytes) :
    ((decode bytes).isSome = true ↔
      ∃ text, capture bytes = some text ∧ Valid text ∧ Distinct text ∧ Finite text) ∧
    ∀ text value, capture bytes = some text → decode bytes = some value →
      Denotes text value ∧ (Plain text → Shallow text → fromSlice bytes = some value) := by
  cases captured : capture bytes with
  | none => simp [decode, captured]
  | some text =>
    have decoded : decode bytes = strict (text.length + 1) text := by simp [decode, captured]
    rw [decoded, strict_isSome (Nat.lt_succ_self _), sound_iff]
    constructor
    · simp
    · rintro _ value ⟨⟩ read
      refine ⟨strict_denotes read, fun plain shallow => ?_⟩
      show capture bytes >>= parse DEPTH = some value
      rw [captured]
      apply strict_parse read plain
      intro below part inside deep
      have := shallow below part inside deep
      simp only [DEPTH] at this
      omega

end accepted

/-! ## A library of a few texts -/

/-- What the containers consist of and what the scalars read as. -/
structure Tables where
  members : List (String × List (String × String))
  items : List (String × List String)
  scalars : List (String × Value)

/-- A number that is passed on as an object is taken for the number. -/
def Tables.parse (tables : Tables) : Nat → String → Option Value
  | 0, _ => none
  | depth + 1, text =>
    match kind text with
    | .scalar => tables.scalars.lookup text
    | .array =>
      if depth = 0 then none else do
        let rows ← tables.items.lookup text
        return .array (← rows.mapM (tables.parse depth))
    | .object =>
      if depth = 0 then none else do
        let rows ← tables.members.lookup text
        if (rows.head?.map Prod.fst).any (PRIVATE.contains ·) then
          match ← rows.mapM fun row => tables.parse depth row.2 with
          | [.string number] => some (.number number)
          | _ => none
        else
          let values ← rows.mapM fun row => tables.parse depth row.2
          return .object (((rows.map Prod.fst).zip values).foldl (fun fields field =>
            insert fields field.1 field.2) [])

/-- An object as the library passes numbers on, and the number that it is taken for. -/
def literal := "\x7b\"$serde_json::private::Number\":\"1.5\"\x7d"

def nested := "\x7b\"integer\":18446744073709551615,\"list\":[true,\x7b\"a\":1.5\x7d]\x7d"

def sample : Tables where
  members := [(literal, [("$serde_json::private::Number", "\"1.5\"")]),
    (nested, [("integer", "18446744073709551615"), ("list", "[true,\x7b\"a\":1.5\x7d]")]),
    ("\x7b\"a\":1.5\x7d", [("a", "1.5")])]
  items := [("[true,\x7b\"a\":1.5\x7d]", ["true", "\x7b\"a\":1.5\x7d"])]
  scalars := [("\"1.5\"", .string "1.5"), ("18446744073709551615", .number "18446744073709551615"),
    ("true", .bool true), ("1.5", .number "1.5"), ("1e999", .number "1e999")]

def utf8 (text : String) : Bytes := text.toUTF8.data.toList

@[reducible] def sampleLibrary : Library where
  capture bytes := [literal, nested, "1e999"].find? (utf8 · == bytes)
  members text := sample.members.lookup text
  items text := sample.items.lookup text
  parse := sample.parse
  isFinite number := number != "1e999"

attribute [local instance] sampleLibrary

theorem mem_of_lookup {α : Type} {table : List (String × α)} {text : String} {found : α}
    (there : table.lookup text = some found) : (text, found) ∈ table := by
  have ⟨before, after, same, _⟩ := List.lookup_eq_some_iff.mp there
  simp [same]

theorem sampleLawful : Lawful where
  member_shorter text rows row found there := by
    have all : ∀ entry ∈ sample.members, ∀ row ∈ entry.2, row.2.length < entry.1.length := by
      decide
    exact all _ (mem_of_lookup found) row there
  item_shorter text rows row found there := by
    have all : ∀ entry ∈ sample.items, ∀ row ∈ entry.2, row.length < entry.1.length := by
      decide
    exact all _ (mem_of_lookup found) row there
  scalar depth text shape := by
    show sample.parse (depth + 1) text = sample.parse (127 + 1) text
    rw [Tables.parse, Tables.parse, shape]
  array depth text shape := by
    show sample.parse (depth + 1 + 1) text = _
    rw [Tables.parse, shape]
    rfl
  object depth text rows shape found ordinary := by
    have plain : (rows.head?.map Prod.fst).any (PRIVATE.contains ·) = false := by
      cases first : rows.head? with
      | none => rfl
      | some row => simpa using ordinary row first
    have found : sample.members.lookup text = some rows := found
    show sample.parse (depth + 1 + 1) text = _
    rw [Tables.parse, shape]
    simp only [Nat.add_eq_zero_iff, one_ne_zero, and_false, if_false, found, Option.bind_eq_bind,
      Option.bind_some, plain]
    rfl

theorem strict_decode_nested :
    (decode (utf8 nested)).isSome = true ∧ Valid nested ∧ Distinct nested ∧ Finite nested := by
  have accepted : (decode (utf8 nested)).isSome = true := by decide +kernel
  have ⟨text, captured, holds⟩ := ((@strict_decode _ sampleLawful (utf8 nested)).1).mp accepted
  have same : nested = text := Option.some.inj (captured.symm.trans (by decide +kernel) |>.symm)
  exact ⟨accepted, same ▸ holds⟩

/-- An object stays an object, where the library reads a number. -/
theorem decode_keeps_literal :
    ¬ ∀ bytes, ((decode bytes).isSome = true ↔
        ∃ text, capture bytes = some text ∧ Valid text ∧ Distinct text) ∧
      ∀ value, decode bytes = some value → fromSlice bytes = some value := by
  intro all
  have kept : decode (utf8 literal) =
      some (.object [("$serde_json::private::Number", .string "1.5")]) := by rfl
  have taken : fromSlice (utf8 literal) = some (.number "1.5") := by rfl
  exact absurd (taken.symm.trans ((all (utf8 literal)).2 _ kept)) nofun

end Flightdeck.StrictJson
