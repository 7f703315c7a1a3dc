import Flightdeck.Json.Strict

/-!
# The rows of a Store check

`store_check.rs` keeps a row for each stage of a check.  The helper processes report about the
stages line by line; a row that has a result keeps it.
-/

namespace Flightdeck.StoreCheck

open StrictJson (Bytes Value Library)

def STAGES := ["runtime", "account", "catalog", "license", "library", "window"]

def ONLINE := ["account", "catalog", "license", "library"]

def CODES := ["checking", "available", "verified", "local_session", "visible", "sign_in_required",
  "expired", "not_licensed", "unsupported", "invalid_config", "connection", "timeout",
  "account_changed", "keyring", "error", "cancelled", "runtime_update", "incomplete", "signing_in"]

inductive State where
  | pending | running | passed | failed | skipped | cancelled
  deriving DecidableEq

/-- The states that a helper may report. -/
def State.ofText : String → Option State
  | "running" => some .running
  | "passed" => some .passed
  | "failed" => some .failed
  | "skipped" => some .skipped
  | "cancelled" => some .cancelled
  | _ => none

/-- Nothing has ended the stage yet. -/
def State.isOpen : State → Bool
  | .pending | .running => true
  | _ => false

structure Row where
  stage : String
  state : State
  code : String
  /-- the exit code of a failed sign-in, with its explanation -/
  login : Option (Int × String)
  deriving DecidableEq

/-- The row as a check starts with it. -/
def Row.start (stage : String) : Row := ⟨stage, .pending, "checking", none⟩

/-- `rows.iter().find(…)` -/
def rowOf (rows : List Row) (stage : String) : Option Row := rows.find? (·.stage == stage)

/-- What is made of the row that `rows.iter_mut().find(…)` gives. -/
def setRow (f : Row → Row) (stage : String) : List Row → List Row
  | [] => []
  | row :: rows => if row.stage = stage then f row :: rows else row :: setRow f stage rows

def finished (stages : List String) (code : String) (row : Row) : Row :=
  if stages.contains row.stage && row.state.isOpen then
    { row with state := if code = "cancelled" then .cancelled else .failed, code := code }
  else row

def finish_pending (rows : List Row) (stages : List String) (code : String) : List Row :=
  rows.map (finished stages code)

/-! ## Reports -/

/-- `cloud::json` -/
def json [Library] (raw : Bytes) : Option Value :=
  match StrictJson.decode raw with
  | some (.object fields) => some (.object fields)
  | _ => none

/-- `value[key].as_str()` -/
def member (value : Value) (key : String) : Option String :=
  match value with
  | .object fields =>
    match fields.lookup key with
    | some (.string text) => some text
    | _ => none
  | _ => none

/-- `value.as_object().map(|m| m.len())` -/
def size : Value → Option Nat
  | .object fields => some fields.length
  | _ => none

/-- `value == json!({"stage":"check","state":"failed","code":code})` -/
def isFailure (value : Value) (code : String) : Bool :=
  size value == some 3 && member value "stage" == some "check" &&
    member value "state" == some "failed" && member value "code" == some code

/-- The code that says that a stage is in order. -/
def expected : String → String
  | "account" => "local_session"
  | "catalog" | "library" => "available"
  | "license" => "verified"
  | "window" => "visible"
  | _ => ""

structure Report where
  stage : String
  state : State
  code : String
  deriving DecidableEq

/-- What a helper may say. -/
def Report.admitted (report : Report) (allowed : List String) : Bool :=
  allowed.contains report.stage && CODES.contains report.code &&
    !(report.state == .passed && report.code != expected report.stage ||
      report.state == .running && report.code != "checking")

/-- The report that a value is. -/
def report (value : Value) (allowed : List String) : Option Report :=
  if size value ≠ some 3 then none
  else
    match member value "stage", (member value "state").bind State.ofText, member value "code" with
    | some stage, some state, some code =>
      if Report.admitted ⟨stage, state, code⟩ allowed then some ⟨stage, state, code⟩ else none
    | _, _, _ => none

/-- `*row = value` -/
def Report.row (report : Report) : Row := ⟨report.stage, report.state, report.code, none⟩

/-- The rows with a report, which only a row without a result takes. -/
def record (rows : List Row) (report : Report) : Option (List Row) :=
  match rowOf rows report.stage with
  | some row =>
    if row.state.isOpen then some (setRow (fun _ => report.row) report.stage rows) else none
  | none => none

/-- The rows after a line, where the line is accepted. -/
def event [Library] (raw : Bytes) (rows : List Row) (allowed : List String) :
    Option (List Row) :=
  match json raw with
  | none => none
  | some value =>
    if isFailure value "timeout" || isFailure value "error" then
      some (finish_pending rows allowed ((member value "code").getD "error"))
    else
      match report value allowed with
      | some report => record rows report
      | none => none

def check_failure [Library] (raw : Bytes) : Option String :=
  match json raw with
  | some value => ["error", "timeout"].find? (isFailure value)
  | none => none

/-- `game_install::login_result`: the error that an exit code stands for. -/
def login_result (code : Int) : Option String :=
  if code = 0 then none
  else some (match code with
    | 70 => "Das Microsoft-Anmeldefenster oder der Anmeldeablauf ist fehlgeschlagen. Flightdeck aus der grafischen Sitzung starten und erneut versuchen."
    | 71 => "Die Microsoft-Anmeldung konnte nicht vorbereitet werden. Schlüsselbund und Netzwerk prüfen und erneut versuchen."
    | 72 => "Die Microsoft-Anmeldedaten konnten nicht gespeichert werden. Den Linux-Schlüsselbund prüfen und erneut versuchen."
    | 73 => "Die Verbindung zu Microsoft ist während der Anmeldung fehlgeschlagen (Anmeldecode 73). Bitte die Verbindung prüfen und erneut versuchen."
    | 74 => "Die Microsoft-Anmeldeantwort konnte nicht verarbeitet werden (Anmeldecode 74). Bitte diesen Code beim Fehlerbericht angeben."
    | 75 => "Microsoft hat die Anmeldung ohne einen unterstützten Verifizierungsschritt abgelehnt (Anmeldecode 75). Bitte diesen Code beim Fehlerbericht angeben."
    | 76 => "Bitte mit demselben Microsoft-Konto wie zuvor anmelden (Anmeldecode 76)."
    | 79 => "Microsoft hat keinen unterstützten Verifizierungsschritt zurückgegeben (Anmeldecode 79). Bitte diesen Code beim Fehlerbericht angeben."
    | 80 => "Die Microsoft-Tokenanfrage konnte nicht erstellt werden (Anmeldecode 80)."
    | 81 => "Die Microsoft-Anmeldeantwort überschreitet das Größenlimit (Anmeldecode 81)."
    | 82 => "Die Textkodierung der Microsoft-Anmeldeantwort ist ungültig (Anmeldecode 82)."
    | 83 => "Die XML-Struktur der Microsoft-Anmeldeantwort konnte nicht gelesen werden (Anmeldecode 83)."
    | 84 => "Die Signatur der Microsoft-Anmeldeantwort konnte nicht geprüft werden (Anmeldecode 84)."
    | 85 => "Der Microsoft-Verifizierungsschritt konnte nicht entschlüsselt werden (Anmeldecode 85)."
    | 86 => "Der entschlüsselte Microsoft-Verifizierungsschritt konnte nicht gelesen werden (Anmeldecode 86)."
    | 87 => "Die Microsoft-Tokenantwort konnte nicht entschlüsselt werden (Anmeldecode 87)."
    | 88 => "Die entschlüsselte Microsoft-Tokenantwort konnte nicht gelesen werden (Anmeldecode 88)."
    | 89 => "Die Microsoft-Tokenantwort ist unvollständig (Anmeldecode 89)."
    | 90 => "Der Microsoft-Anmeldedienst hat einen HTTP-Fehler zurückgegeben (Anmeldecode 90)."
    | 91 => "Microsoft hat kein gültiges Haupt-Anmeldetoken zurückgegeben (Anmeldecode 91)."
    | 92 => "Die Microsoft-Tokenanfrage hat das Zeitlimit überschritten (Anmeldecode 92)."
    | 93 => "Microsoft hat zu viele Anmeldeversuche gemeldet. Bitte vor dem nächsten Versuch warten (Anmeldecode 93)."
    | 101 => "Die Microsoft-Anmeldung wurde unerwartet beendet. Grafische Sitzung, GTK/WebKitGTK und Schlüsselbund prüfen und erneut versuchen."
    | _ => "Die Microsoft-Anmeldung wurde nicht abgeschlossen. Bitte erneut versuchen.")

/-! ## A table that changes -/

/-- The rows, and every table before them, the latest first. -/
structure Steps where
  rows : List Row
  before : List (List Row)

def Steps.put (s : Steps) (rows : List Row) : Steps := ⟨rows, s.rows :: s.before⟩

/-- A row goes forward, and its result stays. -/
def Row.Next (old new : Row) : Prop :=
  new.stage = old.stage ∧ (old.state = .running → new.state ≠ .pending) ∧
    (old.state.isOpen = false → new.state = old.state ∧ new.code = old.code)

theorem Row.Next.refl (row : Row) : row.Next row := by
  refine ⟨rfl, ?_, fun _ => ⟨rfl, rfl⟩⟩
  intro running pending
  rw [running] at pending
  contradiction

theorem Row.Next.trans {a b c : Row} (first : a.Next b) (second : b.Next c) : a.Next c := by
  refine ⟨second.1.trans first.1, ?_, ?_⟩
  · intro running pending
    have apart := first.2.1 running
    cases state : b.state with
    | pending => exact apart state
    | running => exact second.2.1 state pending
    | passed | failed | skipped | cancelled =>
      have same := (second.2.2 (by rw [state]; rfl)).1
      rw [pending, state] at same
      contradiction
  · intro closed
    have same := first.2.2 closed
    have still := second.2.2 (by rw [same.1]; exact closed)
    exact ⟨still.1.trans same.1, still.2.trans same.2⟩

/-- A row without a result may get any but the first state. -/
theorem Row.Next.result {old new : Row} (stage : new.stage = old.stage)
    (isOpen : old.state.isOpen = true) (moved : new.state ≠ .pending) : old.Next new := by
  refine ⟨stage, fun _ => moved, ?_⟩
  intro closed
  rw [isOpen] at closed
  contradiction

/-- Every row of a table goes forward. -/
def Forward (old new : List Row) : Prop := List.Forall₂ Row.Next old new

theorem Forward.refl (rows : List Row) : Forward rows rows :=
  List.forall₂_same.mpr fun row _ => .refl row

theorem Forward.trans {a b c : List Row} (first : Forward a b) (second : Forward b c) :
    Forward a c := by
  unfold Forward at *
  induction first generalizing c with
  | nil => exact second
  | cons head _ ih =>
    cases second with
    | cons next rest => exact .cons (head.trans next) (ih rest)

theorem Forward.map {f : Row → Row} {rows : List Row} (next : ∀ row ∈ rows, row.Next (f row)) :
    Forward rows (rows.map f) := by
  induction rows with
  | nil => exact .nil
  | cons row rows ih =>
    refine .cons (next row (List.mem_cons_self ..)) (ih ?_)
    intro other there
    exact next other (List.mem_cons_of_mem _ there)

theorem Forward.stages {old new : List Row} (forward : Forward old new) :
    new.map Row.stage = old.map Row.stage := by
  induction forward with
  | nil => rfl
  | cons head _ ih => rw [List.map_cons, List.map_cons, head.1, ih]

/-- Every table goes on from all tables before it. -/
def Steps.Ordered (s : Steps) : Prop :=
  (s.rows :: s.before).Pairwise fun later earlier => Forward earlier later

theorem Steps.Ordered.put {s : Steps} (ordered : s.Ordered) {rows : List Row}
    (forward : Forward s.rows rows) : (s.put rows).Ordered := by
  refine List.pairwise_cons.mpr ⟨?_, ordered⟩
  intro earlier there
  rcases List.mem_cons.mp there with rfl | there
  · exact forward
  · exact ((List.pairwise_cons.mp ordered).1 earlier there).trans forward

/-! ## One row -/

theorem rowOf_nil (stage : String) : rowOf [] stage = none := rfl

theorem rowOf_cons (row : Row) (rows : List Row) (stage : String) :
    rowOf (row :: rows) stage = if row.stage = stage then some row else rowOf rows stage := by
  by_cases same : row.stage = stage <;> simp [rowOf, same]

theorem rowOf_stage {rows : List Row} {stage : String} {row : Row}
    (found : rowOf rows stage = some row) : row.stage = stage := by
  simpa using List.find?_some found

theorem rowOf_isSome {rows : List Row} {stage : String} :
    (rowOf rows stage).isSome = true ↔ stage ∈ rows.map Row.stage := by
  simp [rowOf]

theorem rowOf_setRow {f : Row → Row} (keeps : ∀ row, (f row).stage = row.stage)
    (stage other : String) (rows : List Row) : rowOf (setRow f stage rows) other =
      if other = stage then (rowOf rows other).map f else rowOf rows other := by
  induction rows with
  | nil => simp [setRow, rowOf_nil]
  | cons row rows ih =>
    unfold setRow
    by_cases here : row.stage = stage
    · rw [if_pos here, rowOf_cons, rowOf_cons, keeps, here]
      by_cases same : other = stage
      · subst same
        simp
      · simp [same, Ne.symm same]
    · rw [if_neg here, rowOf_cons, rowOf_cons, ih]
      by_cases same : other = stage
      · subst same
        simp [here]
      · simp [same]

/-- A function that keeps the stages changes each row by itself. -/
theorem rowOf_map {f : Row → Row} (keeps : ∀ row, (f row).stage = row.stage) (stage : String)
    (rows : List Row) : rowOf (rows.map f) stage = (rowOf rows stage).map f := by
  induction rows with
  | nil => rfl
  | cons row rows ih =>
    rw [List.map_cons, rowOf_cons, rowOf_cons, keeps, ih]
    split <;> rfl

theorem finished_stage (stages : List String) (code : String) (row : Row) :
    (finished stages code row).stage = row.stage := by
  unfold finished
  split <;> rfl

theorem rowOf_finish_pending (rows : List Row) (stages : List String) (code stage : String) :
    rowOf (finish_pending rows stages code) stage =
      (rowOf rows stage).map (finished stages code) :=
  rowOf_map (finished_stage stages code) stage rows

/-- The rows of other stages are not finished. -/
theorem finished_other {stages : List String} {row : Row} (other : row.stage ∉ stages)
    (code : String) : finished stages code row = row := by
  apply if_neg
  simp [other]

/-- A row with a result keeps it. -/
theorem finished_closed {row : Row} (closed : row.state.isOpen = false) (stages : List String)
    (code : String) : finished stages code row = row := by
  apply if_neg
  simp [closed]

theorem finished_isOpen {stages : List String} {row : Row} (there : row.stage ∈ stages)
    (code : String) : (finished stages code row).state.isOpen = false := by
  by_cases isOpen : row.state.isOpen = true
  · have finish : (stages.contains row.stage && row.state.isOpen) = true := by
      simp [there, isOpen]
    rw [finished, if_pos finish]
    by_cases cancelled : code = "cancelled"
    · simp [cancelled, State.isOpen]
    · simp [cancelled, State.isOpen]
  · simp only [Bool.not_eq_true] at isOpen
    rw [finished_closed isOpen]
    exact isOpen

/-- No row becomes passed by being finished. -/
theorem finished_passed {stages : List String} {code : String} {row : Row} :
    (finished stages code row).state = .passed ↔ row.state = .passed := by
  by_cases finish : (stages.contains row.stage && row.state.isOpen) = true
  · have isOpen : row.state.isOpen = true := (Bool.and_eq_true_iff.mp finish).2
    rw [finished, if_pos finish]
    constructor
    · intro passed
      by_cases cancelled : code = "cancelled" <;> simp [cancelled] at passed
    · intro passed
      rw [passed] at isOpen
      contradiction
  · rw [finished, if_neg finish]

theorem forward_finish_pending (rows : List Row) (stages : List String) (code : String) :
    Forward rows (finish_pending rows stages code) := by
  apply Forward.map
  intro row _
  by_cases isOpen : row.state.isOpen = true
  · by_cases there : row.stage ∈ stages
    · apply Row.Next.result (finished_stage ..) isOpen
      intro pending
      have closed := finished_isOpen there code
      rw [pending] at closed
      contradiction
    · rw [finished_other there]
      exact .refl row
  · simp only [Bool.not_eq_true] at isOpen
    rw [finished_closed isOpen]
    exact .refl row

theorem forward_setRow {f : Row → Row} {stage : String} {rows : List Row}
    (next : ∀ row, rowOf rows stage = some row → row.Next (f row)) :
    Forward rows (setRow f stage rows) := by
  induction rows with
  | nil => exact .nil
  | cons row rows ih =>
    unfold setRow
    rw [show rowOf (row :: rows) stage = _ from rowOf_cons ..] at next
    by_cases here : row.stage = stage
    · rw [if_pos here]
      exact .cons (next row (if_pos here)) (Forward.refl rows)
    · rw [if_neg here]
      refine .cons (.refl row) (ih ?_)
      intro other found
      exact next other ((if_neg here).trans found)

end Flightdeck.StoreCheck
