import Flightdeck.UserInterface.Controller

/-!
# What an update can do

Every update is a sequence of a few moves: it starts a poll, sends a request of the user, starts
work of no generation, or turns to a new generation.
-/

namespace Flightdeck.UserInterface

variable {S : Surface}

namespace Task

def generation : Task S → Option Nat
  | .poll generation _ _ _ => some generation
  | .reconnect generation _ => some generation
  | .post generation _ _ => some generation
  | .discover generation _ => some generation
  | _ => none

/-- The task is a request of the user, which no other may overlap. -/
def isUser : Task S → Bool
  | .post _ _ _ => true
  | .discover _ _ => true
  | _ => false

def isPoll : Task S → Bool
  | .poll _ _ _ _ => true
  | .reconnect _ _ => true
  | _ => false

/-- The task is one that can be aborted. -/
def abortable : Task S → Bool
  | .poll _ _ _ _ => true
  | _ => false

/-- The task hands an action to the service, or a question of the user. -/
def sends : Task S → Bool
  | .post _ _ _ => true
  | .discover _ _ => true
  | .startup _ _ _ => true
  | _ => false

theorem user_not_poll {t : Task S} (user : t.isUser = true) : t.isPoll = false := by
  cases t <;> simp_all [isUser, isPoll]

theorem poll_not_user {t : Task S} (poll : t.isPoll = true) : t.isUser = false := by
  cases t <;> simp_all [isUser, isPoll]

theorem poll_sends {t : Task S} (poll : t.isPoll = true) : t.sends = false := by
  cases t <;> simp_all [isPoll, sends]

end Task

/-- The fields of the protocol are as they were. -/
structure Same (a b : App S) : Prop where
  generation : b.generation = a.generation
  pending : b.pending = a.pending
  polling : b.polling = a.polling
  poll_task : b.poll_task = a.poll_task
  next : b.next = a.next
  restarting : b.restarting = a.restarting
  online : b.online = true → a.online = true

/-- The moves of an update, with the tasks they start. -/
inductive Moves : App S → List (Nat × Task S) → App S → Prop where
  | still {a b} : Same a b → Moves a [] b
  | aside {a b t} : t.generation = none → (t.sends = true → a.online = true) →
      Same { a with next := a.next + 1 } b → Moves a [(a.next, t)] b
  | turn {a b} (poll_task : Option Nat) : a.pending = false →
      (poll_task = a.poll_task ∨ poll_task = none) →
      Same
        { a with generation := a.generation + 1, polling := false, poll_task := poll_task } b →
      Moves a [] b
  | ask {a b t} : a.pending = false → a.polling = false → t.isPoll = true →
      t.generation = some a.generation →
      Same
        { a with
          polling := true
          poll_task := if t.abortable then some a.next else a.poll_task
          next := a.next + 1 } b →
      Moves a [(a.next, t)] b
  | send {a b t} (poll_task : Option Nat) : a.pending = false → a.online = true →
      t.isUser = true → t.generation = some (a.generation + 1) →
      (poll_task = a.poll_task ∨ poll_task = none) →
      Same
        { a with
          generation := a.generation + 1
          pending := true
          polling := false
          poll_task := poll_task
          next := a.next + 1 } b →
      Moves a [(a.next, t)] b
  | both {a b c l m} : Moves a l b → Moves b m c → Moves a (l ++ m) c

namespace Same

theorem refl (a : App S) : Same a a := ⟨rfl, rfl, rfl, rfl, rfl, rfl, id⟩

end Same

namespace Moves

/-- What a step left, told as moves. -/
def Leaves (a : App S) (step : Step S) : Prop := Moves a step.2 step.1

theorem quiet {a b : App S} (same : Same a b) : Leaves a b.quiet := .still same

/-- Nothing of the protocol changed before the moves. -/
theorem after {a b : App S} {step : Step S} (same : Same a b) (moves : Leaves b step) :
    Leaves a step := .both (.still same) moves

theorem also {a : App S} {first : Step S} {second : App S → Step S} (h : Leaves a first)
    (rest : ∀ b : App S, Leaves b (second b)) : Leaves a (App.also first second) :=
  .both h (rest first.1)

theorem refresh (a : App S) : Leaves a a.refresh := by
  unfold App.refresh
  by_cases busy : (a.polling || a.pending || a.restarting) = true
  · rw [if_pos busy]
    exact quiet (.refl a)
  · rw [if_neg busy]
    have idle : a.polling = false ∧ a.pending = false := by
      cases hp : a.polling <;> cases hq : a.pending <;> simp_all
    split
    · exact .ask idle.2 idle.1 rfl rfl ⟨rfl, rfl, rfl, rfl, rfl, rfl, id⟩
    · exact .ask idle.2 idle.1 rfl rfl ⟨rfl, rfl, rfl, rfl, rfl, rfl, id⟩
    · exact quiet (.refl a)

/-- Nothing of the protocol changed before the refresh. -/
theorem refreshed {a b : App S} (same : Same a b) : Leaves a b.refresh := after same (refresh b)

theorem awaitSnapshot {a b : App S} (same : Same a { b with online := false }) :
    Leaves a b.awaitSnapshot := by
  unfold App.awaitSnapshot
  exact refreshed same

/-- A request exists only while the status is new and no other request is under way. -/
theorem request_gate {a : App S} {now : Nat} {action : Action} {request : Request S.Value}
    (found : a.request now action = some request) : a.online = true ∧ a.pending = false := by
  unfold App.request at found
  by_cases closed : (!a.online || a.pending) = true
  · rw [if_pos closed] at found
    contradiction
  · cases ho : a.online <;> cases hp : a.pending <;> simp_all

theorem submit {a : App S} {now : Nat} {action : Action} {request : Request S.Value}
    (found : a.request now action = some request) (action' : Action)
    (request' : Request S.Value) : Leaves a (a.submit action' request') := by
  have gate := request_gate found
  unfold App.submit
  split
  · exact quiet (.refl a)
  · exact .send none gate.2 gate.1 rfl rfl (.inr rfl) ⟨rfl, rfl, rfl, rfl, rfl, rfl, id⟩

theorem check_startup (a : App S) (now : Nat) : Leaves a (a.check_startup now) := by
  unfold App.check_startup
  split
  · next found _ =>
      exact .aside rfl (fun _ => (request_gate found).1)
        ⟨rfl, rfl, rfl, rfl, rfl, rfl, id⟩
  · exact quiet (.refl a)

theorem act (a : App S) (now : Nat) (action : Action) : Leaves a (a.act now action) := by
  unfold App.act
  by_cases reviewing : a.confirmation.isSome = true
  · rw [if_pos reviewing]
    exact quiet (.refl a)
  · rw [if_neg reviewing]
    by_cases check : action = .startup
    · rw [if_pos check]
      exact check_startup a now
    · rw [if_neg check]
      split
      · exact quiet (.refl a)
      · next found =>
          split
          · exact quiet ⟨rfl, rfl, rfl, rfl, rfl, rfl, id⟩
          · exact submit found _ _

theorem confirm (a : App S) (now : Nat) : Leaves a (a.confirm now) := by
  unfold App.confirm
  split
  · exact quiet (.refl a)
  · split
    · next found =>
        exact after (b := { a with confirmation := none }) ⟨rfl, rfl, rfl, rfl, rfl, rfl, id⟩
          (submit found _ _)
    · exact quiet ⟨rfl, rfl, rfl, rfl, rfl, rfl, id⟩

theorem checkAfterSnapshot (a : App S) (now : Nat) : Leaves a (a.checkAfterSnapshot now) := by
  unfold App.checkAfterSnapshot
  split
  · exact also (check_startup a now) refresh
  · exact check_startup a now

theorem connectChecked (a : App S) (now : Nat) : Leaves a (a.connectChecked now) := by
  unfold App.connectChecked
  split
  · exact checkAfterSnapshot a now
  · next id found =>
      dsimp only
      have dropped : Same a { a with connect_after_check := none } :=
        ⟨rfl, rfl, rfl, rfl, rfl, rfl, fun h => h⟩
      split
      · exact after dropped (checkAfterSnapshot _ now)
      · split
        · exact after dropped (act _ now _)
        · exact checkAfterSnapshot a now

theorem select (a : App S) (now : Nat) (edition : Edition) :
    Leaves a (a.select now edition) := by
  unfold App.select
  split
  · exact quiet (.refl a)
  · split
    · exact act a now _
    · exact quiet ⟨rfl, rfl, rfl, rfl, rfl, rfl, id⟩

theorem chooseLanguage (a : App S) (now : Nat) (language : Language) :
    Leaves a (a.chooseLanguage now language) := by
  unfold App.chooseLanguage
  by_cases busy : a.pending = true
  · rw [if_pos busy]
    exact quiet (.refl a)
  · rw [if_neg busy]
    have chosen : Same a
        { a with
          language := language
          confirmation := none
          contents := S.notice none a.contents } := ⟨rfl, rfl, rfl, rfl, rfl, rfl, id⟩
    dsimp only
    split
    · next found => exact after chosen (submit found _ _)
    · have idle : a.pending = false := by simpa using busy
      have turned := Moves.turn a.poll_task idle (.inl rfl) (Same.refl _)
      exact turned.both (refreshed ⟨rfl, rfl, rfl, rfl, rfl, rfl, fun h => by simp at h⟩)

theorem navigate (a : App S) (page : Page) : Leaves a (a.navigate page) := by
  unfold App.navigate
  dsimp only
  by_cases busy : a.pending = true
  · rw [if_pos busy]
    exact refreshed ⟨rfl, rfl, rfl, rfl, rfl, rfl, id⟩
  · rw [if_neg busy]
    have idle : a.pending = false := by simpa using busy
    have turned := Moves.turn none idle (.inr rfl) (Same.refl _)
    exact turned.both (refreshed ⟨rfl, rfl, rfl, rfl, rfl, rfl, id⟩)

theorem edit (a : App S) (change : S.Edit) : Leaves a (a.edit change) := by
  unfold App.edit
  split
  · exact quiet (.refl a)
  · exact quiet ⟨rfl, rfl, rfl, rfl, rfl, rfl, id⟩

theorem setField (a : App S) (field value : String) : Leaves a (a.setField field value) := by
  unfold App.setField
  split
  · exact quiet (.refl a)
  · split
    · exact quiet (.refl a)
    · exact quiet ⟨rfl, rfl, rfl, rfl, rfl, rfl, id⟩

theorem setFlag (a : App S) (now : Nat) (field : String) (value : Bool) :
    Leaves a (a.setFlag now field value) := by
  unfold App.setFlag
  split
  · exact quiet (.refl a)
  · dsimp only
    have opened : Same a { a with confirmation := none } :=
      ⟨rfl, rfl, rfl, rfl, rfl, rfl, id⟩
    split
    · have discarded := after opened (act _ now .maintenanceDiscard)
      have shown := Moves.both discarded
        (.still (b := { (App.act { a with confirmation := none } now .maintenanceDiscard).1 with
          contents := S.flag field value
            (App.act { a with confirmation := none } now .maintenanceDiscard).1.contents })
          ⟨rfl, rfl, rfl, rfl, rfl, rfl, id⟩)
      rw [List.append_nil] at shown
      exact shown
    · exact quiet ⟨rfl, rfl, rfl, rfl, rfl, rfl, id⟩

theorem discover (a : App S) (path : String) : Leaves a (a.discover path) := by
  unfold App.discover
  by_cases refused : (!(["setup/discover", "proton/discover"].contains path) || a.pending ||
      !a.online || (path == "proton/discover" && !a.can_edit_field "proton")) = true
  · rw [if_pos refused]
    exact quiet (.refl a)
  · rw [if_neg refused]
    have gate : a.online = true ∧ a.pending = false := by
      cases ho : a.online <;> cases hp : a.pending <;> simp_all
    split
    · exact quiet (.refl a)
    · exact .send a.poll_task gate.2 gate.1 rfl rfl (.inl rfl)
        ⟨rfl, rfl, rfl, rfl, rfl, rfl, id⟩

theorem openDesktop (a : App S) (possible : Bool) (message : Option String) :
    Leaves a (a.openDesktop possible message) := by
  unfold App.openDesktop
  split
  · exact quiet (.refl a)
  · exact .aside rfl nofun ⟨rfl, rfl, rfl, rfl, rfl, rfl, id⟩

theorem widget (a : App S) : Leaves a (a.perform .widget) :=
  .aside rfl nofun ⟨rfl, rfl, rfl, rfl, rfl, rfl, id⟩

theorem exported (a : App S) (result : Except String (Option String)) :
    Leaves a (a.exported result) := by
  unfold App.exported
  dsimp only
  split <;> exact quiet ⟨rfl, rfl, rfl, rfl, rfl, rfl, id⟩

end Moves

/-- The generation that a reply carries. -/
def Message.generation : Message S → Option Nat
  | .loaded generation _ => some generation
  | .reconnected generation _ => some generation
  | .completed generation _ _ => some generation
  | .discovered generation _ _ => some generation
  | _ => none

/-- The message says that the launcher's restart went through. -/
def Message.restarts : Message S → Bool
  | .completed _ (.launcher op) (.ok _) => decide (op = "restart")
  | _ => false

/-- What a reply of the present generation changes before anything else: the task that it answers is
over. -/
def Message.settles (app : App S) : Message S → App S
  | .loaded _ result =>
    { app with
      polling := false
      poll_task := none
      online := match result with
        | .ok _ => true
        | .error _ => app.online }
  | .reconnected _ _ => { app with polling := false }
  | .completed generation done result =>
    if Message.restarts (S := S) (.completed generation done result) then
      { app with pending := false, restarting := true }
    else { app with pending := false, online := false }
  | .discovered _ _ _ => { app with pending := false }
  | _ => app

namespace Moves

theorem startupCompleted (a : App S) (result : Except String S.Value) :
    Leaves a (a.startupCompleted result) := by
  unfold App.startupCompleted
  exact refreshed ⟨rfl, rfl, rfl, rfl, rfl, rfl, id⟩

theorem showSnapshot (a : App S) (snapshot : S.Snapshot) :
    Same { a with online := true } (a.showSnapshot snapshot) := by
  unfold App.showSnapshot App.reset_startup_check
  dsimp only
  split <;> split <;> exact ⟨rfl, rfl, rfl, rfl, rfl, rfl, fun _ => rfl⟩

theorem loaded (a : App S) (now generation : Nat) (result : Except String S.Snapshot) :
    Leaves (Message.settles a (.loaded generation result)) (a.loaded now result) := by
  unfold App.loaded
  cases result with
  | ok snapshot =>
      have shown := showSnapshot
        { a with polling := false, poll_task := none, pending_action := none } snapshot
      have settled : Same (Message.settles a (.loaded generation (.ok snapshot))) _ :=
        ⟨shown.1, shown.2, shown.3, shown.4, shown.5, shown.6, shown.7⟩
      exact after settled (connectChecked _ now)
  | error error => exact quiet ⟨rfl, rfl, rfl, rfl, rfl, rfl, fun h => by simp at h⟩

theorem reconnected (a : App S) (generation : Nat) (result : Except String S.Client) :
    Leaves (Message.settles a (.reconnected generation result)) (a.reconnected result) := by
  unfold App.reconnected
  cases result with
  | ok client => exact refreshed ⟨rfl, rfl, rfl, rfl, rfl, rfl, id⟩
  | error error => exact quiet ⟨rfl, rfl, rfl, rfl, rfl, rfl, id⟩

theorem discovered (a : App S) (generation : Nat) (path : String)
    (result : Except String S.Value) :
    Leaves (Message.settles a (.discovered generation path result))
      (a.discovered path result) := by
  unfold App.discovered
  exact refreshed ⟨rfl, rfl, rfl, rfl, rfl, rfl, id⟩

theorem completed (a : App S) (generation : Nat) (action : Action)
    (result : Except String S.Value) :
    Leaves (Message.settles a (.completed generation action result))
      (a.completed action result) := by
  have settled (plain : Message.restarts (S := S) (.completed generation action result) = false) :
      Message.settles a (.completed generation action result) =
        { a with pending := false, online := false } := by
    simp [Message.settles, plain]
  unfold App.completed
  cases result with
  | error error =>
      rw [settled (by cases action <;> rfl)]
      dsimp only
      exact awaitSnapshot ⟨rfl, rfl, rfl, rfl, rfl, rfl, id⟩
  | ok value =>
      dsimp only
      split
      · rw [settled rfl]
        split <;> exact awaitSnapshot ⟨rfl, rfl, rfl, rfl, rfl, rfl, id⟩
      · rw [settled rfl]
        exact awaitSnapshot ⟨rfl, rfl, rfl, rfl, rfl, rfl, id⟩
      · next op =>
          by_cases restart : op = "restart"
          · subst restart
            exact .aside rfl nofun ⟨rfl, rfl, rfl, rfl, rfl, rfl, id⟩
          · rw [if_neg restart, settled (by simp [Message.restarts, restart])]
            exact awaitSnapshot ⟨rfl, rfl, rfl, rfl, rfl, rfl, id⟩
      · next other =>
          rw [settled (by cases action <;> first | rfl | exact absurd rfl (other _))]
          exact awaitSnapshot ⟨rfl, rfl, rfl, rfl, rfl, rfl, id⟩

end Moves

/-- A message that is no reply of a generation makes moves only. -/
theorem update_moves (now : Nat) (a : App S) (message : Message S)
    (plain : message.generation = none) : Moves.Leaves a (update now a message) := by
  have stays : Moves.Leaves a a.quiet := .quiet (.refl a)
  unfold update
  split
  · exact stays
  · cases message with
    | select edition => exact .select a now edition
    | language language => exact .chooseLanguage a now language
    | navigate page => exact .navigate a page
    | toggle part => exact .quiet ⟨rfl, rfl, rfl, rfl, rfl, rfl, id⟩
    | openHelp link => exact .openDesktop a _ _
    | openReleaseLink url => exact .openDesktop a _ _
    | action action => exact .act a now action
    | tick => exact .refresh a
    | refresh =>
        dsimp only [handle]
        exact .refreshed ⟨rfl, rfl, rfl, rfl, rfl, rfl, id⟩
    | loaded generation result => contradiction
    | reconnected generation result => contradiction
    | completed generation action result => contradiction
    | startupCompleted sequence runtime result =>
        dsimp only [handle]
        split
        · exact stays
        · exact .startupCompleted a result
    | field field value => exact .setField a field value
    | flag field value => exact .setFlag a now field value
    | discover path => exact .discover a path
    | discovered generation path result => contradiction
    | confirm => exact .confirm a now
    | cancelConfirm => exact .quiet ⟨rfl, rfl, rfl, rfl, rfl, rfl, id⟩
    | copyReport =>
        dsimp only [handle]
        split
        · exact .widget a
        · exact stays
    | mailReport => exact .openDesktop a _ _
    | editDescription change => exact .edit a change
    | saveReport => exact .openDesktop a _ _
    | saveDiagnostics => exact .openDesktop a _ _
    | copyDiagnostics =>
        dsimp only [handle]
        split
        · exact .widget a
        · exact stays
    | focus previous => exact .widget a
    | exported result => exact .exported a result
    | dismiss => exact .quiet ⟨rfl, rfl, rfl, rfl, rfl, rfl, id⟩

/-- A reply of the present generation settles its task, and then makes moves. -/
theorem update_settles (now : Nat) (a : App S) (message : Message S)
    (present : message.generation = some a.generation) :
    Moves.Leaves (message.settles a) (update now a message) := by
  unfold update
  cases message with
  | loaded generation result =>
      have same : generation = a.generation := by simpa [Message.generation] using present
      subst same
      simpa [handle, Message.heldBack] using Moves.loaded a now a.generation result
  | reconnected generation result =>
      have same : generation = a.generation := by simpa [Message.generation] using present
      subst same
      simpa [handle, Message.heldBack] using Moves.reconnected a a.generation result
  | completed generation action result =>
      have same : generation = a.generation := by simpa [Message.generation] using present
      subst same
      simpa [handle, Message.heldBack] using Moves.completed a a.generation action result
  | discovered generation path result =>
      have same : generation = a.generation := by simpa [Message.generation] using present
      subst same
      simpa [handle, Message.heldBack] using Moves.discovered a a.generation path result
  | _ => contradiction

/-- A reply of another generation changes nothing. -/
theorem update_stale (now : Nat) (a : App S) (message : Message S) (generation : Nat)
    (carried : message.generation = some generation) (stale : generation ≠ a.generation) :
    update now a message = (a, []) := by
  unfold update
  cases message with
  | loaded g result =>
      have same : g = generation := by simpa [Message.generation] using carried
      simp [handle, Message.heldBack, same, stale, App.quiet]
  | reconnected g result =>
      have same : g = generation := by simpa [Message.generation] using carried
      simp [handle, Message.heldBack, same, stale, App.quiet]
  | completed g action result =>
      have same : g = generation := by simpa [Message.generation] using carried
      simp [handle, Message.heldBack, same, stale, App.quiet]
  | discovered g path result =>
      have same : g = generation := by simpa [Message.generation] using carried
      simp [handle, Message.heldBack, same, stale, App.quiet]
  | _ => contradiction

end Flightdeck.UserInterface
