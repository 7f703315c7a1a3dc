import Flightdeck.Fenix.Environment

/-!
# What the repair does to a prefix

However the steps of a run go, each value loses dead hooks at most, and what was changed is in the
record.
-/

namespace Flightdeck.FenixEnvironment

open Foundation
open FrameworkRepair (lines)
open GraphicsSettings (Text isWhitespace trim)
open StrictJson (Value)

/-! ## The output of a query -/

/-- Three of the four blanks between two columns. -/
def BLANKS : Text := [' ', ' ', ' ']

/-- A column with the blanks before it. -/
def column (text : Text) : Text := ' ' :: (BLANKS ++ text)

/-- The line of a value, as `reg query` documents it. -/
def rowOf (entry : Entry) : Text :=
  column (HOOKS.toList ++ column (entry.kind.name.toList ++ column entry.data))

/-- What is known of the code that is not part of the repository. -/
structure System.Lawful (system : System) : Prop where
  /-- A line break ends the line of a value, and the other lines are about something else. -/
  prints : ∀ place entry, place ≠ .loader → '\n' ∉ entry.data → '\x00' ∉ entry.data →
    ∃ row before after,
      lines (String.ofList (lossyChars (system.print place entry))) = before ++ row :: after ∧
      (row = rowOf entry ∨ row ++ ['\r'] = rowOf entry) ∧
      ∀ line ∈ before ++ after, hookLine line = none
  /-- Only a text that says `native` alone is reported. -/
  reports : ∀ entry before,
    system.nativeOnly (lossyChars (system.print .loader entry)) = some before →
    trim entry.data = entry.data → entry.kind = .sz ∧ before = entry.data
  settles : system.nativeOnly (lossyChars (system.print .loader ⟨.sz, system.mscoreeOverride⟩)) =
    none

def Kind.isText : Kind → Bool
  | .sz => true
  | .expandSz => true
  | _ => false

variable {system : System} {steps : Steps}

/-- A value that the output of `reg query` shows as it is. -/
structure Plain (data : Text) : Prop where
  start : trimStart data = data
  line : '\n' ∉ data
  whole : '\x00' ∉ data
  ending : data.getLast? ≠ some '\r'

/-- The repair of this value has nothing to do. -/
def Settled (system : System) (place : Place) (entry : Option Entry) : Prop :=
  ∀ value, entry = some value → match place with
    | .loader => system.nativeOnly (lossyChars (system.print place value)) = none
    | _ => ∀ kind text, hookEntry (lossyChars (system.print place value)) = some (kind, text) →
      filtered system.tree text = none

theorem mem_intercalate {c sep : Char} {list : List Text} (there : c ∈ [sep].intercalate list) :
    c = sep ∨ ∃ text ∈ list, c ∈ text := by
  induction list with
  | nil => cases there
  | cons text list ih =>
    cases list with
    | nil =>
      rw [List.intercalate_singleton] at there
      exact .inr ⟨text, List.mem_cons_self .., there⟩
    | cons next list =>
      rw [List.intercalate_cons_cons] at there
      rcases List.mem_append.mp there with there | there
      · rcases List.mem_append.mp there with there | there
        · exact .inr ⟨text, List.mem_cons_self .., there⟩
        · exact .inl (List.mem_singleton.mp there)
      · rcases ih there with same | ⟨other, listed, there⟩
        · exact .inl same
        · exact .inr ⟨other, List.mem_cons_of_mem _ listed, there⟩

theorem changes_addChange {record : Value} {rows : List Value} (known : changes record = some rows)
    (change : Value) : changes (addChange record change) = some (rows ++ [change]) := by
  cases record with
  | object fields =>
    unfold changes index at known
    dsimp only at known
    cases found : fields.find? fun field => field.1 == "changes" with
    | none =>
      rw [found] at known
      cases known
    | some field =>
      rw [found] at known
      have ⟨key, value⟩ := field
      have named := @List.find?_some _ (fun field : String × Value => field.1 == "changes") _ _
        found
      have rows_of : value = .array rows := by
        cases value <;> cases known
        rfl
      have same : (fun field : String × Value => field.1 == "changes") ∘ pushField change =
          fun field => field.1 == "changes" := by
        funext field
        show ((pushField change field).1 == "changes") = _
        unfold pushField
        split <;> rfl
      have pushed : pushField change (key, value) = (key, .array (rows ++ [change])) := by
        unfold pushField
        rw [if_pos named, rows_of]
        rfl
      show asArray ((((fields.map (pushField change)).find? fun field =>
        field.1 == "changes").map Prod.snd).getD .null) = _
      rw [List.find?_map, same, found, Option.map_some, pushed]
      rfl
  | null => cases known
  | bool b => cases known
  | number text => cases known
  | string text => cases known
  | array items => cases known

/-- The record of a value that was changed. -/
def Recorded (place : Place) (before : Entry) (file : Option (Document Value)) : Prop :=
  ∃ record rows change, file = some (.value record) ∧ changes record = some rows ∧ change ∈ rows ∧
    index change "key" = .string place.key ∧ index change "name" = .string place.valueName ∧
    index change "kind" = .string before.kind.name ∧
    index change "before" = .string (String.ofList before.data)

/-- What was recorded stays recorded, and first. -/
def Grown (old new : Option (Document Value)) : Prop :=
  ∀ record rows, old = some (.value record) → changes record = some rows →
    ∃ record' rows', new = some (.value record') ∧ changes record' = some (rows ++ rows')

/-- A record to which a change can be added. -/
def Usable (file : Option (Document Value)) : Prop :=
  file = none ∨ ∃ record, readDocument valueText 65536 file = .ok record ∧ usable record = true

/-- The record that is read before a change. -/
def Read (steps : Steps) (place : Place) (file : Option (Document Value)) (record : Value) : Prop :=
  file = none ∧ record = NEW_RECORD ∨
    steps.fault (.read place) = .none ∧ readDocument valueText 65536 file = .ok record

theorem Grown.refl (file : Option (Document Value)) : Grown file file := by
  intro record rows here known
  exact ⟨record, [], here, by rw [List.append_nil, known]⟩

theorem Grown.trans {a b c : Option (Document Value)} (first : Grown a b) (second : Grown b c) :
    Grown a c := by
  intro record rows here known
  have ⟨record', rows', there, more⟩ := first record rows here known
  have ⟨record'', rows'', last, most⟩ := second record' _ there more
  exact ⟨record'', rows' ++ rows'', last, by rw [most, List.append_assoc]⟩

theorem Recorded.mono {place : Place} {before : Entry} {old new : Option (Document Value)}
    (recorded : Recorded place before old) (grown : Grown old new) :
    Recorded place before new := by
  have ⟨record, rows, change, here, known, there, facts⟩ := recorded
  have ⟨record', rows', here', known'⟩ := grown record rows here known
  exact ⟨record', _, change, here', known', List.mem_append_left _ there, facts⟩

theorem Read.grown {place : Place} {file : Option (Document Value)} {record : Value}
    (read : Read steps place file record) (change : Value) :
    Grown file (some (.value (addChange record change))) := by
  intro first rows here known
  rcases read with ⟨absent, _⟩ | ⟨_, read⟩
  · rw [absent] at here
    cases here
  · have same := (readDocument_eq_ok.mp read).1
    rw [here] at same
    cases same
    exact ⟨_, [change], rfl, changes_addChange known change⟩

theorem Read.usable {place : Place} {file : Option (Document Value)} {record : Value}
    (read : Read steps place file record) (good : usable record = true) : Usable file := by
  rcases read with ⟨absent, _⟩ | ⟨_, read⟩
  · exact .inl absent
  · exact .inr ⟨record, read, good⟩

/-! ## One run -/

/-- What is left of a value: only dead hooks are gone. -/
def Filtered (tree : Tree) (before after : Option Entry) : Prop :=
  after = before ∨ ∃ entry keep, before = some entry ∧ entry.kind.isText = true ∧
    (∀ hook ∈ hooks entry.data, keep hook = false → Dead tree (trim hook)) ∧
    after = stored entry.kind ([';'].intercalate ((hooks entry.data).filter keep))

/-- A world that a run from `start` can leave. -/
structure Since (system : System) (steps : Steps) (start now : World) : Prop where
  hooks : ∀ place, place ≠ .loader →
    Filtered system.tree (start.registry place) (now.registry place)
  recorded : ∀ place, now.registry place ≠ start.registry place →
    ∃ entry, start.registry place = some entry ∧ Recorded place entry now.record
  saved : ∀ place, now.registry place ≠ start.registry place →
    steps.fault (.save place) = .none ∧
      (start.record = none ∨ steps.fault (.read place) = .none) ∧ Usable start.record
  grown : Grown start.record now.record
  record : now.record = start.record ∨ Usable start.record ∧ now.record ≠ none

/-- The values that a run has not come to are as they were, the others have nothing to repair. -/
structure Visited (system : System) (steps : Steps) (start : World) (places : List Place)
    (now : World) : Prop where
  untouched : ∀ place, place ∉ places → now.registry place = start.registry place
  settled : (∀ place, steps.answers place = true) → ∀ place ∈ places,
    Settled system place (now.registry place)

variable {start now : World} {place : Place} {places : List Place}

theorem Since.refl (system : System) (steps : Steps) (start : World) :
    Since system steps start start where
  hooks _ _ := .inl rfl
  recorded _ changed := absurd rfl changed
  saved _ changed := absurd rfl changed
  grown := Grown.refl _
  record := .inl rfl

theorem Since.ready (since : Since system steps start now) {record : Value}
    (read : Read steps place now.record record) (good : usable record = true) :
    Usable start.record := by
  rcases since.record with same | ⟨good, _⟩
  · rw [← same]
    exact read.usable good
  · exact good

theorem Since.save (since : Since system steps start now) {record : Value}
    (read : Read steps place now.record record) (good : usable record = true) (change : Value) :
    Since system steps start { now with record := some (.value (addChange record change)) } where
  hooks := since.hooks
  recorded place changed := by
    have ⟨entry, old, recorded⟩ := since.recorded place changed
    exact ⟨entry, old, recorded.mono (read.grown change)⟩
  saved := since.saved
  grown := since.grown.trans (read.grown change)
  record := .inr ⟨since.ready read good, nofun⟩

/-- The change of a value whose record is there. -/
theorem Since.change (since : Since system steps start now) {entry : Entry} {new : Option Entry}
    (old : start.registry place = some entry)
    (filtered : place ≠ .loader → Filtered system.tree (some entry) new)
    (recorded : Recorded place entry now.record)
    (saved : steps.fault (.save place) = .none ∧
      (start.record = none ∨ steps.fault (.read place) = .none) ∧ Usable start.record) :
    Since system steps start
      { now with registry := Function.update now.registry place new } where
  hooks other hook := by
    by_cases same : other = place
    · subst same
      show Filtered system.tree _ (Function.update now.registry other new other)
      rw [Function.update_self, old]
      exact filtered hook
    · show Filtered system.tree _ (Function.update now.registry place new other)
      rw [Function.update_of_ne same]
      exact since.hooks other hook
  recorded other changed := by
    by_cases same : other = place
    · subst same
      exact ⟨entry, old, recorded⟩
    · apply since.recorded other
      rwa [← Function.update_of_ne same new now.registry]
  saved other changed := by
    by_cases same : other = place
    · subst same
      exact saved
    · apply since.saved other
      rwa [← Function.update_of_ne same new now.registry]
  grown := since.grown
  record := since.record

theorem Visited.keep (visited : Visited system steps start places now)
    (here : (∀ place, steps.answers place = true) → Settled system place (now.registry place)) :
    Visited system steps start (place :: places) now where
  untouched other absent := visited.untouched other fun there =>
    absent (List.mem_cons_of_mem _ there)
  settled answers other there := by
    rcases List.mem_cons.mp there with rfl | there
    · exact here answers
    · exact visited.settled answers other there

theorem Visited.change (visited : Visited system steps start places now) {world : World}
    {new : Option Entry} (changed : world.registry = Function.update now.registry place new)
    (absent : place ∉ places) (here : Settled system place new) :
    Visited system steps start (place :: places) world where
  untouched other outside := by
    have different : other ≠ place := fun same => outside (same ▸ List.mem_cons_self ..)
    rw [changed, Function.update_of_ne different]
    exact visited.untouched other fun there => outside (List.mem_cons_of_mem _ there)
  settled answers other there := by
    rw [changed]
    by_cases same : other = place
    · subst same
      rw [Function.update_self]
      exact here
    · rw [Function.update_of_ne same]
      apply visited.settled answers
      rcases List.mem_cons.mp there with equal | there
      · exact absurd equal same
      · exact there

/-! ## The steps -/

/-- A step whose fault leaves what held before it or after it. -/
theorem perform_spec {α : Type} {fault : Fault} {m : M α} {P E : World → Prop}
    {Q : α → World → Prop} (step : Triple P m Q fun _ => E) (before : ∀ w, P w → E w)
    (after : ∀ a w, Q a w → E w) :
    Triple P (perform fault Error.io m) (fun a w => fault = .none ∧ Q a w) fun _ => E := by
  cases fault with
  | none => exact step.post fun _ _ holds => ⟨rfl, holds⟩
  | fails late =>
    cases late with
    | false => exact Triple.throw before
    | true => exact step.bind fun a => Triple.throw (after a)
  | stops late =>
    cases late with
    | false => exact Triple.throw before
    | true => exact step.bind fun a => Triple.throw (after a)

theorem query_spec (place : Place) : Triple (fun w => w = now) (query system steps place)
    (fun output w => w = now ∧
      (output = none ∧ (steps.answers place = true → now.registry place = none) ∨
        ∃ entry, now.registry place = some entry ∧
          output = some (lossyChars (system.print place entry))))
    fun _ w => w = now := by
  refine (perform_spec (Q := fun output w => w = now ∧
      (output = none ∧ (steps.answers place = true → now.registry place = none) ∨
        ∃ entry, now.registry place = some entry ∧
          output = some (lossyChars (system.print place entry))))
    ?_ (fun _ same => same) fun _ _ holds => holds.1).post fun _ _ holds => holds.2
  apply Triple.get_bind
  rintro s rfl
  cases here : s.registry place with
  | none => exact Triple.total fun w same => ⟨none, w, rfl, same, .inl ⟨rfl, fun _ => rfl⟩⟩
  | some entry =>
    apply Triple.bind (Q := fun _ w => w = s)
    · exact Triple.check (fun _ _ same _ => same) fun _ _ same _ => same
    · intro _
      by_cases answered : steps.answers place = true
      · rw [if_pos answered]
        exact Triple.total fun w same =>
          ⟨_, w, rfl, same, .inr ⟨entry, rfl, rfl⟩⟩
      · rw [if_neg answered]
        exact Triple.total fun w same =>
          ⟨_, w, rfl, same, .inl ⟨rfl, fun yes => absurd yes answered⟩⟩

/-- What a run may start with: a value that `reg query` shows as it is and of which no hook is
mistaken, or one that is not changed. -/
structure Sound (system : System) (start : World) : Prop where
  hooks : ∀ place entry, place ≠ .loader → start.registry place = some entry →
    (Plain entry.data ∧ ∀ hook ∈ FenixEnvironment.hooks entry.data,
      ¬ Mistaken system.tree (trim hook)) ∨ Settled system place (some entry)
  loader : ∀ entry, start.registry .loader = some entry →
    trim entry.data = entry.data ∨ Settled system .loader (some entry)

def encode (text : Text) : Bytes := text.flatMap String.utf8EncodeChar

/-- A run without a fault. -/
def calm : Steps where
  fault _ := .none
  answers _ := true
  now _ := "2024-11-19T00:00:00+00:00"

def upper : Bytes := encode "Hooks".toList

def lower : Bytes := encode "hooks".toList

def library : Bytes := encode "valid.dll".toList

end Flightdeck.FenixEnvironment
