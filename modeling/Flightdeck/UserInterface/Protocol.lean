import Mathlib.Data.List.Nodup
import Flightdeck.UserInterface.Generations

/-!
# The generation protocol

Any order of messages and replies: one request of the user at a time, a poll that is waited for is
one that will answer, and replies of an older generation are without effect.
-/

namespace Flightdeck.UserInterface

variable {S : Surface}

/-- The message may be the task's reply. -/
def Task.answeredBy : Task S → Message S → Bool
  | .poll g _ _ _, .loaded g' _ => g == g'
  | .reconnect g _, .reconnected g' _ => g == g'
  | .post g action _, .completed g' action' _ => g == g' && action == action'
  | .discover g path, .discovered g' path' _ => g == g' && path == path'
  | .startup sequence runtime _, .startupCompleted sequence' runtime' _ =>
    sequence == sequence' && runtime == runtime'
  | .desktop, .exported _ => true
  | _, _ => false

/-- The message is the reply of a task, and not an event of the window. -/
def Message.isReply : Message S → Bool
  | .loaded _ _ => true
  | .reconnected _ _ => true
  | .completed _ _ _ => true
  | .startupCompleted _ _ _ => true
  | .discovered _ _ _ => true
  | .exported _ => true
  | _ => false

/-- The application with its tasks.  `awaiting` is set from a completed POST to the next snapshot
whose poll was started afterwards: it is the number that such a poll has at least. -/
structure World (S : Surface) where
  app : App S
  outstanding : List (Nat × Task S)
  aborted : List (Nat × Task S)
  issued : List (Nat × Task S)
  awaiting : Option Nat

/-- A message, with the number of the task that it answers and the time on the clock. -/
structure Event (S : Surface) where
  source : Option Nat
  now : Nat
  message : Message S

namespace World

/-- The program has just started: `refresh` has asked for the first snapshot. -/
def start (language : Language) (client : Option S.Client) (connector : Option S.Connector)
    (contents : S.Contents) : World S :=
  let step := (App.new language client connector contents).refresh
  { app := step.1, outstanding := step.2, aborted := [], issued := step.2, awaiting := none }

/-- Whether an action still waits for a snapshot, after the message. -/
def awaits (w : World S) (e : Event S) : Option Nat :=
  match e.message with
  | .completed _ _ _ => some w.app.next
  | .loaded generation (.ok _) =>
    match w.awaiting, e.source with
    | some first, some n =>
      if generation = w.app.generation ∧ first ≤ n then none else some first
    | awaiting, _ => awaiting
  | _ => w.awaiting

/-- The update dropped the task's handle. -/
def dropped (before after : App S) (x : Nat × Task S) : Bool :=
  before.poll_task == some x.1 && after.poll_task != some x.1

def deliver (w : World S) (e : Event S) : World S :=
  let step := update e.now w.app e.message
  let tasks := w.outstanding ++ step.2
  { app := step.1
    outstanding := tasks.filter fun x => !dropped w.app step.1 x
    aborted := w.aborted ++ tasks.filter (dropped w.app step.1)
    issued := w.issued ++ step.2
    awaiting := w.awaits e }

def without (n : Nat) (tasks : List (Nat × Task S)) : List (Nat × Task S) :=
  tasks.filter fun x => x.1 != n

def numbered (n : Nat) (tasks : List (Nat × Task S)) : Option (Nat × Task S) :=
  tasks.find? fun x => x.1 == n

/-- One message arrives, if it can. -/
def step (w : World S) (e : Event S) : Option (World S) :=
  match e.source with
  | none => if e.message.isReply then none else some (w.deliver e)
  | some n =>
    match numbered n w.outstanding, numbered n w.aborted with
    | some x, _ =>
      if x.2.answeredBy e.message then
        some (deliver { w with outstanding := without n w.outstanding } e)
      else none
    | none, some x =>
      if x.2.answeredBy e.message then
        some (deliver { w with aborted := without n w.aborted } e)
      else none
    | none, none => none

def run : World S → List (Event S) → Option (World S)
  | w, [] => some w
  | w, e :: events => (w.step e).bind fun next => next.run events

/-! ## What every reachable world satisfies -/

/-- A poll that was aborted is of an older generation. -/
def Spent (a : App S) (aborted : List (Nat × Task S)) : Prop :=
  ∀ x ∈ aborted, x.2.abortable = true ∧ ∃ g, x.2.generation = some g ∧ g < a.generation

/-- While an action waits for a snapshot the status counts as old, and polls of the present
generation were started later. -/
def Held (a : App S) (out : List (Nat × Task S)) (awaiting : Option Nat) : Prop :=
  ∀ first, awaiting = some first → a.restarting = false → first ≤ a.next ∧ a.online = false ∧
    ∀ x ∈ out, x.2.isPoll = true → x.2.generation = some a.generation → first ≤ x.1

structure Inv (w : World S) : Prop where
  good : Good w.app w.outstanding w.issued
  spent : Spent w.app w.aborted
  held : Held w.app w.outstanding w.awaiting

end World

/-! ## Moves, once more -/

namespace Moves

variable {a b : App S} {l : List (Nat × Task S)}

theorem generation_le (m : Moves a l b) : a.generation ≤ b.generation := by
  induction m with
  | still s => exact Nat.le_of_eq s.generation.symm
  | aside _ _ s => exact Nat.le_of_eq s.generation.symm
  | turn _ _ _ s =>
      rw [s.generation]
      exact Nat.le_succ _
  | ask _ _ _ _ s => exact Nat.le_of_eq s.generation.symm
  | send _ _ _ _ _ _ s =>
      rw [s.generation]
      exact Nat.le_succ _
  | both _ _ first second => exact Nat.le_trans first second

theorem next_le (m : Moves a l b) : a.next ≤ b.next ∧ ∀ x ∈ l, a.next ≤ x.1 := by
  induction m with
  | still s => exact ⟨Nat.le_of_eq s.next.symm, by simp⟩
  | aside _ _ s =>
      rw [s.next]
      exact ⟨Nat.le_succ _, by simp⟩
  | turn _ _ _ s => exact ⟨Nat.le_of_eq s.next.symm, by simp⟩
  | ask _ _ _ _ s =>
      rw [s.next]
      exact ⟨Nat.le_succ _, by simp⟩
  | send _ _ _ _ _ _ s =>
      rw [s.next]
      exact ⟨Nat.le_succ _, by simp⟩
  | both _ _ first second =>
      refine ⟨Nat.le_trans first.1 second.1, fun x member => ?_⟩
      rcases List.mem_append.mp member with former | later
      · exact first.2 x former
      · exact Nat.le_trans first.1 (second.2 x later)

theorem restarting_eq (m : Moves a l b) : b.restarting = a.restarting := by
  induction m with
  | still s => exact s.restarting
  | aside _ _ s => exact s.restarting
  | turn _ _ _ s => exact s.restarting
  | ask _ _ _ _ s => exact s.restarting
  | send _ _ _ _ _ _ s => exact s.restarting
  | both _ _ first second => exact second.trans first

/-- With an old status nothing is sent, and the status stays old. -/
theorem offline (m : Moves a l b) :
    a.online = false → b.online = false ∧ ∀ x ∈ l, x.2.sends = false := by
  have stays {c d : App S} (s : Same c d) (old : c.online = false) : d.online = false := by
    cases new : d.online with
    | false => rfl
    | true => exact (s.online new).symm.trans old |>.symm ▸ rfl
  induction m with
  | still s => exact fun old => ⟨stays s old, by simp⟩
  | @aside a b t _ sends s =>
      intro old
      refine ⟨stays s old, fun x member => ?_⟩
      rw [List.mem_singleton.mp member]
      cases sent : t.sends with
      | false => rfl
      | true =>
          rw [sends sent] at old
          contradiction
  | turn _ _ _ s => exact fun old => ⟨stays s old, by simp⟩
  | ask _ _ poll _ s =>
      intro old
      refine ⟨stays s old, fun x member => ?_⟩
      rw [List.mem_singleton.mp member]
      exact Task.poll_sends poll
  | send _ _ online _ _ _ s =>
      intro old
      rw [online] at old
      contradiction
  | both _ _ first second =>
      intro old
      have former := first old
      have later := second former.1
      refine ⟨later.1, fun x member => ?_⟩
      rcases List.mem_append.mp member with before | after
      · exact former.2 x before
      · exact later.2 x after

end Moves

namespace World

variable {a b : App S} {out issued l : List (Nat × Task S)} {w w' : World S} {e : Event S}

/-- Waiting for a snapshot goes on over any moves. -/
theorem Held.moves (good : Good a out issued) {awaiting : Option Nat}
    (h : Held a out awaiting) (m : Moves a l b) : Held b (out ++ l) awaiting := by
  intro first waits steady
  rw [m.restarting_eq] at steady
  have held := h first waits steady
  have numbers := m.next_le
  refine ⟨Nat.le_trans held.1 numbers.1, (m.offline held.2.1).1, fun x member poll carried => ?_⟩
  rcases List.mem_append.mp member with former | later
  · have before := good.old x (good.listed x former) _ carried
    have same : b.generation = a.generation := Nat.le_antisymm before m.generation_le
    exact held.2.2 x former poll (by rw [carried, same])
  · exact Nat.le_trans held.1 (numbers.2 x later)

theorem Held.drop {awaiting : Option Nat} (h : Held a out awaiting)
    (keep : Nat × Task S → Bool) : Held a (out.filter keep) awaiting := by
  intro first waits steady
  have held := h first waits steady
  exact ⟨held.1, held.2.1, fun x member => held.2.2 x (List.mem_filter.mp member).1⟩

/-- The update of one message keeps the invariant, where its moves begin at an application that does
and has the handle of before or none. -/
theorem Inv.deliver (base : Good a w.outstanding w.issued)
    (moves : Moves.Leaves a (update e.now w.app e.message))
    (spent : Spent a w.aborted)
    (held : Held a w.outstanding (w.awaits e))
    (number : ∀ n, w.app.poll_task = some n → n < a.next)
    (handle : ∀ n, w.app.poll_task = some n → ∀ x ∈ w.outstanding, x.1 = n →
      x.2.abortable = true) : Inv (w.deliver e) := by
  have good := base.moves moves
  have later := Moves.generation_le moves
  -- what an update drops is a poll of before
  have poll : ∀ x ∈ w.outstanding ++ (update e.now w.app e.message).2,
      dropped w.app (update e.now w.app e.message).1 x = true → x.2.abortable = true ∧
        (update e.now w.app e.message).1.poll_task ≠ some x.1 := by
    intro x member drop
    unfold dropped at drop
    rw [Bool.and_eq_true, beq_iff_eq, bne_iff_ne] at drop
    refine ⟨?_, drop.2⟩
    rcases List.mem_append.mp member with former | new
    · exact handle x.1 drop.1 x former rfl
    · have := number x.1 drop.1
      have := (Moves.next_le moves).2 x new
      omega
  constructor
  · apply good.drop
    intro x member carried
    cases drop : dropped w.app (update e.now w.app e.message).1 x with
    | false => rfl
    | true =>
        have gone := poll x member drop
        exact absurd (good.kept member carried gone.1) gone.2
  · intro x member
    rcases List.mem_append.mp member with former | new
    · obtain ⟨abortable, g, carried, older⟩ := spent x former
      exact ⟨abortable, g, carried, Nat.lt_of_lt_of_le older later⟩
    · rw [List.mem_filter] at new
      have gone := poll x new.1 new.2
      refine ⟨gone.1, ?_⟩
      cases task : x.2 with
      | poll g client language keys =>
          have carried : x.2.generation = some g := by rw [task]; rfl
          refine ⟨g, rfl, ?_⟩
          have atMost := good.old x (good.listed x new.1) g carried
          refine Nat.lt_of_le_of_ne atMost fun same => ?_
          exact gone.2 (good.kept new.1 (by rw [carried, same]; rfl) gone.1)
      | _ =>
          rw [task] at gone
          exact absurd gone.1 (by simp [Task.abortable])
  · exact (held.moves base moves).drop _

/-! ## One step -/

theorem numbered_some {n : Nat} {tasks : List (Nat × Task S)} {x : Nat × Task S}
    (found : numbered n tasks = some x) : x ∈ tasks ∧ x.1 = n :=
  ⟨List.mem_of_find?_eq_some found, by simpa using List.find?_some found⟩

theorem answers_generation {t : Task S} {m : Message S} (answers : t.answeredBy m = true) :
    t.generation = m.generation := by
  cases t <;> cases m <;> simp_all [Task.answeredBy, Task.generation, Message.generation]

theorem aborted_loaded {t : Task S} {m : Message S} (answers : t.answeredBy m = true)
    (abortable : t.abortable = true) : ∃ g result, m = .loaded g result := by
  cases t <;> cases m <;> simp_all [Task.answeredBy, Task.abortable]

/-- No reply of an older generation comes from a request of the user. -/
theorem awaits_stale {g : Nat} (carried : e.message.generation = some g)
    (older : g ≠ w.app.generation) (other : ∀ g' action result,
      e.message ≠ .completed g' action result) : w.awaits e = w.awaiting := by
  unfold awaits
  cases message : e.message with
  | completed g' action result => exact absurd message (other g' action result)
  | loaded g' result =>
      rw [message] at carried
      have same : g' = g := by simpa [Message.generation] using carried
      subst same
      cases result with
      | error error => rfl
      | ok snapshot =>
          cases w.awaiting with
          | none => rfl
          | some first =>
              cases e.source with
              | none => rfl
              | some n => simp [older]
  | _ => rfl

theorem awaits_plain (plain : e.message.generation = none) : w.awaits e = w.awaiting := by
  unfold awaits
  cases message : e.message <;> simp_all [Message.generation]

/-- Nothing is left to say of a reply that the application ignores. -/
theorem Inv.ignored (h : Inv w) {g : Nat} (carried : e.message.generation = some g)
    (older : g ≠ w.app.generation)
    (other : ∀ g' action result, e.message ≠ .completed g' action result) :
    Inv (w.deliver e) := by
  have nothing := update_stale e.now w.app e.message g carried older
  refine Inv.deliver h.good ?_ h.spent ?_ (fun n held => (h.good.handle n held).1)
    (fun n held => (h.good.handle n held).2)
  · rw [nothing]
    exact Moves.quiet (.refl _)
  · rw [awaits_stale carried older other]
    exact h.held

/-- What a reply settles, as far as the invariant reads it. -/
structure Settled (a b : App S) : Prop where
  generation : b.generation = a.generation
  next : b.next = a.next
  pending : b.pending = false
  polling : b.polling = false
  handle : b.poll_task = a.poll_task ∨ b.poll_task = none

theorem settled_facts (good : Good a out issued) {x : Nat × Task S} (member : x ∈ out)
    {m : Message S} (answers : x.2.answeredBy m = true)
    (present : m.generation = some a.generation) : Settled a (m.settles a) := by
  have carried : x.2.generation = some a.generation := by
    rw [answers_generation answers, present]
  have alone := good.only member carried
  have user (asked : x.2.isUser = true) : a.polling = false := by
    cases polls : a.polling with
    | false => rfl
    | true =>
        obtain ⟨y, poll, one, -⟩ := good.polling polls
        rw [alone, List.singleton_inj] at one
        rw [← one, Task.user_not_poll asked] at poll
        contradiction
  have poll (polls : x.2.isPoll = true) : a.pending = false := by
    cases pends : a.pending with
    | false => rfl
    | true =>
        obtain ⟨-, y, asked, one, -⟩ := good.pending pends
        rw [alone, List.singleton_inj] at one
        rw [← one, Task.poll_not_user polls] at asked
        contradiction
  cases m with
  | loaded g result =>
      have polls : x.2.isPoll = true := by
        cases hx : x.2 <;> simp_all [Task.answeredBy, Task.isPoll]
      exact ⟨rfl, rfl, poll polls, rfl, .inr rfl⟩
  | reconnected g result =>
      have polls : x.2.isPoll = true := by
        cases hx : x.2 <;> simp_all [Task.answeredBy, Task.isPoll]
      exact ⟨rfl, rfl, poll polls, rfl, .inl rfl⟩
  | completed g action result =>
      have asked : x.2.isUser = true := by
        cases hx : x.2 <;> simp_all [Task.answeredBy, Task.isUser]
      dsimp only [Message.settles]
      split <;> exact ⟨rfl, rfl, rfl, user asked, .inl rfl⟩
  | discovered g path result =>
      have asked : x.2.isUser = true := by
        cases hx : x.2 <;> simp_all [Task.answeredBy, Task.isUser]
      exact ⟨rfl, rfl, rfl, user asked, .inl rfl⟩
  | _ => contradiction

/-- A reply of the present generation leaves the status old, or its snapshot was asked for late
enough. -/
theorem Held.settles (good : Good w.app w.outstanding w.issued)
    (held : Held w.app w.outstanding w.awaiting) {x : Nat × Task S} (member : x ∈ w.outstanding)
    (source : e.source = some x.1) (answers : x.2.answeredBy e.message = true)
    (present : e.message.generation = some w.app.generation) :
    Held (e.message.settles w.app) (without x.1 w.outstanding) (w.awaits e) := by
  have carried : x.2.generation = some w.app.generation := by
    rw [answers_generation answers, present]
  have gone : ∀ y ∈ without x.1 w.outstanding, y.2.generation ≠ some w.app.generation := by
    intro y found same
    obtain ⟨inside, other⟩ := List.mem_filter.mp found
    have present := mem_ofGeneration.mpr ⟨inside, same⟩
    rw [good.only member carried, List.mem_singleton] at present
    rw [present] at other
    simp at other
  intro first waits steady
  unfold awaits at waits
  cases message : e.message with
  | loaded g result =>
      rw [message] at waits steady present answers
      have poll : x.2.isPoll = true := by
        cases hx : x.2 <;> simp_all [Task.answeredBy, Task.isPoll]
      have same : g = w.app.generation := by simpa [Message.generation] using present
      cases result with
      | error error =>
          have before := held first waits steady
          exact ⟨before.1, before.2.1, fun y found _ inside => absurd inside (gone y found)⟩
      | ok snapshot =>
          -- the poll that answers was started late enough, so no one waits any more
          cases waiting : w.awaiting with
          | none =>
              simp only [waiting] at waits
              contradiction
          | some earlier =>
              have before := held earlier waiting steady
              have late := before.2.2 x member poll carried
              simp only [waiting, source, same, late, and_self, if_true] at waits
              contradiction
  | completed g action result =>
      rw [message] at waits steady
      have number : first = w.app.next := (Option.some.inj waits).symm
      dsimp only [Message.settles] at steady ⊢
      by_cases restart : Message.restarts (S := S) (.completed g action result) = true
      · rw [if_pos restart] at steady
        contradiction
      · rw [if_neg restart]
        exact ⟨Nat.le_of_eq number, rfl, fun y found _ inside => absurd inside (gone y found)⟩
  | reconnected g result =>
      rw [message] at waits steady
      have before := held first waits steady
      exact ⟨before.1, before.2.1, fun y found _ inside => absurd inside (gone y found)⟩
  | discovered g path result =>
      rw [message] at waits steady
      have before := held first waits steady
      exact ⟨before.1, before.2.1, fun y found _ inside => absurd inside (gone y found)⟩
  | _ =>
      rw [message] at present
      contradiction

theorem Inv.leave (h : Inv w) (n : Nat)
    (needed : ∀ x ∈ w.outstanding, x.2.generation = some w.app.generation → x.1 ≠ n) :
    Inv { w with outstanding := without n w.outstanding } :=
  ⟨h.good.drop _ fun x member carried => by simpa using needed x member carried, h.spent,
    h.held.drop _⟩

/-- A message that is no reply of a generation. -/
theorem Inv.plain (h : Inv w) (plain : e.message.generation = none) : Inv (w.deliver e) := by
  apply Inv.deliver h.good (update_moves e.now w.app e.message plain) h.spent
  · rw [awaits_plain plain]
    exact h.held
  · exact fun n held => (h.good.handle n held).1
  · exact fun n held => (h.good.handle n held).2

/-- The reply that the present generation waits for. -/
theorem Inv.present (h : Inv w) {x : Nat × Task S} (member : x ∈ w.outstanding)
    (source : e.source = some x.1) (answers : x.2.answeredBy e.message = true)
    (present : e.message.generation = some w.app.generation) :
    Inv (World.deliver { w with outstanding := World.without x.1 w.outstanding } e) := by
  have facts := settled_facts h.good member answers present
  have carried : x.2.generation = some w.app.generation := by
    rw [answers_generation answers, present]
  apply Inv.deliver (a := e.message.settles w.app)
  · exact h.good.answered member carried facts.generation facts.next facts.pending facts.polling
      facts.handle
  · exact update_settles e.now w.app e.message present
  · intro y inside
    rw [facts.generation]
    exact h.spent y inside
  · exact Held.settles h.good h.held member source answers present
  · intro n held
    rw [facts.next]
    exact (h.good.handle n held).1
  · exact fun n held y found => (h.good.handle n held).2 y (List.mem_filter.mp found).1

/-- The step was the reply of a task that was under way, or a message of no task. -/
theorem step_source (stepped : w.step e = some w') :
    (e.source = none ∧ e.message.isReply = false ∧ w' = w.deliver e) ∨
    (∃ x ∈ w.outstanding, e.source = some x.1 ∧ x.2.answeredBy e.message = true ∧
      w' = World.deliver { w with outstanding := without x.1 w.outstanding } e) ∨
    ∃ x ∈ w.aborted, e.source = some x.1 ∧ numbered x.1 w.outstanding = none ∧
      x.2.answeredBy e.message = true ∧
      w' = World.deliver { w with aborted := without x.1 w.aborted } e := by
  unfold World.step at stepped
  split at stepped
  · next source =>
      by_cases reply : e.message.isReply = true
      · rw [if_pos reply] at stepped
        contradiction
      · rw [if_neg reply] at stepped
        exact .inl ⟨source, by simpa using reply, (Option.some.inj stepped).symm⟩
  · next n source =>
      split at stepped
      · next x found =>
          obtain ⟨member, rfl⟩ := numbered_some found
          split at stepped
          · next answers =>
              exact .inr (.inl ⟨x, member, source, answers, (Option.some.inj stepped).symm⟩)
          · contradiction
      · next x absent found =>
          obtain ⟨member, rfl⟩ := numbered_some found
          split at stepped
          · next answers =>
              exact .inr (.inr ⟨x, member, source, absent, answers,
                (Option.some.inj stepped).symm⟩)
          · contradiction
      · contradiction

theorem Inv.step (h : Inv w) (stepped : w.step e = some w') : Inv w' := by
  rcases step_source stepped with ⟨-, reply, rfl⟩ | ⟨x, member, source, answers, rfl⟩ |
    ⟨x, member, -, -, answers, rfl⟩
  · apply h.plain
    cases message : e.message <;> simp_all [Message.isReply, Message.generation]
  · have generation := answers_generation answers
    have same (y : Nat × Task S) (inside : y ∈ w.outstanding) (number : y.1 = x.1) : y = x :=
      List.inj_on_of_nodup_map h.good.distinct inside member number
    cases carried : e.message.generation with
    | none =>
        refine Inv.plain (h.leave x.1 fun y inside current number => ?_) carried
        rw [same y inside number, generation, carried] at current
        contradiction
    | some g =>
        by_cases current : g = w.app.generation
        · rw [current] at carried
          exact h.present member source answers carried
        · refine Inv.ignored (h.leave x.1 fun y inside now number => ?_) carried current ?_
          · rw [same y inside number, generation, carried] at now
            exact current (Option.some.inj now)
          · -- a request of the user is of the present generation
            intro g' action result message
            have user : x.2.isUser = true := by
              rw [message] at answers
              cases hx : x.2 <;> simp_all [Task.answeredBy, Task.isUser]
            have now := h.good.user x member user
            rw [generation, carried] at now
            exact current (Option.some.inj now)
  · obtain ⟨abortable, g, carried, older⟩ := h.spent x member
    obtain ⟨g', result, message⟩ := aborted_loaded answers abortable
    have kept : Inv { w with aborted := World.without x.1 w.aborted } :=
      ⟨h.good, fun y inside => h.spent y (List.mem_filter.mp inside).1, h.held⟩
    refine kept.ignored (g := g) ?_ (Nat.ne_of_lt older) ?_
    · rw [← answers_generation answers, carried]
    · intro other action outcome completed
      rw [message] at completed
      contradiction

theorem Inv.run (events : List (Event S)) :
    ∀ {w w' : World S}, Inv w → w.run events = some w' → Inv w' := by
  induction events with
  | nil =>
      intro w w' h reached
      obtain rfl := Option.some.inj reached
      exact h
  | cons e events ih =>
      intro w w' h reached
      obtain ⟨next, stepped, rest⟩ := Option.bind_eq_some_iff.mp reached
      exact ih (h.step stepped) rest

theorem Inv.start (language : Language) (client : Option S.Client)
    (connector : Option S.Connector) (contents : S.Contents) :
    Inv (World.start language client connector contents) := by
  have empty : Good (App.new language client connector contents) [] [] :=
    ⟨by simp, by simp, by simp, by simp, by simp, nofun, nofun, fun _ _ => rfl, nofun⟩
  have begun := empty.moves (Moves.refresh (App.new language client connector contents))
  rw [List.nil_append] at begun
  exact ⟨begun, by simp [World.start, Spent], nofun⟩

/-! ## The protocol -/

/-- A pending request is the only one of its generation, and its reply ends it. -/
def PendingAnswered (w : World S) : Prop :=
  w.app.pending = true → ∃ x ∈ w.outstanding, x.2.isUser = true ∧
    x.2.generation = some w.app.generation ∧ ofGeneration w.app.generation w.issued = [x] ∧
      ∀ e w', e.source = some x.1 → w.step e = some w' → w'.app.pending = false

/-- At most one request of the user is under way. -/
def SingleRequest (w : World S) : Prop :=
  (w.outstanding ++ w.aborted).countP (fun x => x.2.isUser) ≤ 1

def PollOutstanding (w : World S) : Prop :=
  w.app.polling = true →
    ∃ x ∈ w.outstanding, x.2.isPoll = true ∧ x.2.generation = some w.app.generation

def StaleIgnored (w : World S) : Prop :=
  ∀ now message g, message.generation = some g → g < w.app.generation →
    update now w.app message = (w.app, [])

/-- A confirmed action is sent as it was reviewed, and one that has to be reviewed only so. -/
def ReviewedSent (w : World S) : Prop :=
  ∀ now message n g action request,
    (n, .post g action request) ∈ (update now w.app message).2 →
    (message = .confirm → w.app.confirmation = some (action, request) ∧
      w.app.request now action = some request) ∧
    (message ≠ .confirm → (∀ language, message ≠ .language language) →
      request.confirmation = none)

/-- After a completed POST nothing is sent, unless the step loads the newer snapshot. -/
def SnapshotAwaited (w : World S) : Prop :=
  ∀ e w', w.awaiting.isSome = true → w.step e = some w' → w'.awaiting.isSome = true →
    ∀ x ∈ (update e.now w.app e.message).2, x.2.sends = false

structure Protocol (w : World S) : Prop where
  pending : PendingAnswered w
  single : SingleRequest w
  polling : PollOutstanding w
  stale : StaleIgnored w
  reviewed : ReviewedSent w

theorem refresh_pending (a : App S) : a.refresh.1.pending = a.pending := by
  unfold App.refresh
  split
  · rfl
  · split <;> rfl

theorem completed_pending (a : App S) (action : Action) (result : Except String S.Value) :
    (a.completed action result).1.pending = false := by
  unfold App.completed
  cases result with
  | error error => exact refresh_pending _
  | ok value =>
      dsimp only
      split
      · split <;> exact refresh_pending _
      · exact refresh_pending _
      · split
        · rfl
        · exact refresh_pending _
      · exact refresh_pending _

/-- The reply to a request of the user ends it. -/
theorem user_answered {now : Nat} {t : Task S} {m : Message S} (user : t.isUser = true)
    (answers : t.answeredBy m = true) (present : m.generation = some a.generation) :
    (update now a m).1.pending = false := by
  cases t with
  | post g action request =>
      cases m with
      | completed g' action' result =>
          have same : g' = a.generation := by simpa [Message.generation] using present
          have handled : update now a (.completed g' action' result) =
              a.completed action' result := by simp [update, Message.heldBack, handle, same]
          rw [handled]
          exact completed_pending a action' result
      | _ => contradiction
  | discover g path =>
      cases m with
      | discovered g' path' result =>
          have same : g' = a.generation := by simpa [Message.generation] using present
          have handled : update now a (.discovered g' path' result) =
              a.discovered path' result := by simp [update, Message.heldBack, handle, same]
          rw [handled]
          exact refresh_pending _
      | _ => contradiction
  | _ => contradiction

theorem Inv.pending (h : Inv w) : PendingAnswered w := by
  intro pends
  obtain ⟨-, x, user, out, issued⟩ := h.good.pending pends
  have found : x ∈ ofGeneration w.app.generation w.outstanding := by rw [out]; simp
  obtain ⟨member, carried⟩ := mem_ofGeneration.mp found
  refine ⟨x, member, user, carried, issued, fun e w' source stepped => ?_⟩
  rcases step_source stepped with ⟨none, -, -⟩ | ⟨y, inside, number, answers, rfl⟩ |
    ⟨y, -, number, absent, -, -⟩
  · rw [source] at none
    contradiction
  · have same : y = x := by
      rw [source] at number
      exact List.inj_on_of_nodup_map h.good.distinct inside member
        (Option.some.inj number).symm
    subst same
    exact user_answered user answers (by rw [← answers_generation answers, carried])
  · rw [source] at number
    have here := List.find?_eq_none.mp absent x member
    exact absurd (beq_iff_eq.mpr (Option.some.inj number)) here

theorem Inv.single (h : Inv w) : SingleRequest w := by
  unfold SingleRequest
  have none : w.aborted.countP (fun x => x.2.isUser) = 0 := by
    apply List.countP_eq_zero.mpr
    intro x member user
    have abortable := (h.spent x member).1
    cases hx : x.2 <;> simp_all [Task.abortable, Task.isUser]
  rw [List.countP_append, none, Nat.add_zero]
  calc w.outstanding.countP (fun x => x.2.isUser)
      ≤ w.outstanding.countP (fun x => x.2.generation == some w.app.generation) := by
        apply List.countP_mono_left
        intro x member user
        simpa using h.good.user x member user
    _ = (ofGeneration w.app.generation w.outstanding).length := List.countP_eq_length_filter
    _ ≤ 1 := by
        cases pends : w.app.pending with
        | true =>
            obtain ⟨-, x, -, out, -⟩ := h.good.pending pends
            simp [out]
        | false =>
            cases polls : w.app.polling with
            | true =>
                obtain ⟨x, -, out, -⟩ := h.good.polling polls
                simp [out]
            | false => simp [h.good.idle pends polls]

theorem Inv.polling (h : Inv w) : PollOutstanding w := by
  intro polls
  obtain ⟨x, poll, out, -⟩ := h.good.polling polls
  have found : x ∈ ofGeneration w.app.generation w.outstanding := by rw [out]; simp
  obtain ⟨member, carried⟩ := mem_ofGeneration.mp found
  exact ⟨x, member, poll, carried⟩

theorem stale_ignored (w : World S) : StaleIgnored w := by
  intro now message g carried older
  exact update_stale now w.app message g carried (Nat.ne_of_lt older)

/-! ### What is sent was reviewed -/

/-- The tasks hold no request that has to be reviewed. -/
def Unreviewed (tasks : List (Nat × Task S)) : Prop :=
  ∀ n g action request, (n, .post g action request) ∈ tasks → request.confirmation = none

theorem refresh_unreviewed (a : App S) : Unreviewed a.refresh.2 := by
  intro n g action request sent
  unfold App.refresh at sent
  split at sent
  · contradiction
  · split at sent <;> simp [App.perform, App.startPoll, App.quiet] at sent

theorem check_startup_unreviewed (a : App S) (now : Nat) :
    Unreviewed (a.check_startup now).2 := by
  intro n g action request sent
  unfold App.check_startup at sent
  split at sent <;> simp [App.perform, App.quiet] at sent

theorem submit_sends {a : App S} {action action' : Action} {request request' : Request S.Value}
    {n g : Nat} (sent : (n, .post g action' request') ∈ (a.submit action request).2) :
    action' = action ∧ request' = request := by
  unfold App.submit at sent
  split at sent
  · contradiction
  · simp only [App.perform, List.mem_singleton, Prod.mk.injEq, Task.post.injEq] at sent
    exact sent.2.2

theorem act_unreviewed (a : App S) (now : Nat) (action : Action) :
    Unreviewed (a.act now action).2 := by
  intro n g action' request' sent
  unfold App.act at sent
  split at sent
  · contradiction
  · split at sent
    · exact check_startup_unreviewed a now n g action' request' sent
    · split at sent
      · contradiction
      · next request found =>
          split at sent
          · contradiction
          · next plain =>
              rw [(submit_sends sent).2]
              simpa using plain

theorem checkAfterSnapshot_unreviewed (a : App S) (now : Nat) :
    Unreviewed (a.checkAfterSnapshot now).2 := by
  intro n g action request sent
  unfold App.checkAfterSnapshot App.also at sent
  split at sent
  · rcases List.mem_append.mp sent with check | poll
    · exact check_startup_unreviewed a now n g action request check
    · exact refresh_unreviewed _ n g action request poll
  · exact check_startup_unreviewed a now n g action request sent

theorem loaded_unreviewed (a : App S) (now : Nat) (result : Except String S.Snapshot) :
    Unreviewed (a.loaded now result).2 := by
  intro n g action request sent
  unfold App.loaded at sent
  cases result with
  | error error => contradiction
  | ok snapshot =>
      dsimp only [App.connectChecked] at sent
      split at sent
      · exact checkAfterSnapshot_unreviewed _ now n g action request sent
      · split at sent
        · exact checkAfterSnapshot_unreviewed _ now n g action request sent
        · split at sent
          · exact act_unreviewed _ now _ n g action request sent
          · exact checkAfterSnapshot_unreviewed _ now n g action request sent

theorem completed_unreviewed (a : App S) (action : Action) (result : Except String S.Value) :
    Unreviewed (a.completed action result).2 := by
  intro n g action' request sent
  have refreshed (b : App S) (h : (n, .post g action' request) ∈ b.refresh.2) :
      request.confirmation = none := refresh_unreviewed b n g action' request h
  unfold App.completed at sent
  cases result with
  | error error => exact refreshed _ sent
  | ok value =>
      dsimp only at sent
      split at sent
      · split at sent <;> exact refreshed _ sent
      · exact refreshed _ sent
      · split at sent
        · simp [App.perform] at sent
        · exact refreshed _ sent
      · exact refreshed _ sent

theorem confirm_sends {a : App S} {now n g : Nat} {action : Action}
    {request : Request S.Value} (sent : (n, .post g action request) ∈ (a.confirm now).2) :
    a.confirmation = some (action, request) ∧ a.request now action = some request := by
  unfold App.confirm at sent
  split at sent
  · contradiction
  · next kept reviewed held =>
      split at sent
      · next recomputed =>
          obtain ⟨rfl, rfl⟩ := submit_sends sent
          exact ⟨held, recomputed⟩
      · contradiction

theorem reviewed_sent (w : World S) : ReviewedSent w := by
  intro now message n g action request sent
  unfold update at sent
  split at sent
  · contradiction
  constructor
  · rintro rfl
    exact confirm_sends sent
  · intro other foreign
    have refreshed (a : App S) (h : (n, .post g action request) ∈ a.refresh.2) :
        request.confirmation = none := refresh_unreviewed a n g action request h
    have opened (possible : Bool) (text : Option String)
        (h : (n, .post g action request) ∈ (w.app.openDesktop possible text).2) :
        request.confirmation = none := by
      unfold App.openDesktop at h
      split at h <;> simp [App.perform, App.quiet] at h
    cases message with
    | select edition =>
        dsimp only [handle, App.select] at sent
        split at sent
        · contradiction
        · split at sent
          · exact act_unreviewed w.app now _ n g action request sent
          · contradiction
    | language language => exact absurd rfl (foreign language)
    | navigate page =>
        dsimp only [handle, App.navigate] at sent
        split at sent <;> exact refreshed _ sent
    | toggle part => contradiction
    | openHelp link => exact opened _ _ sent
    | openReleaseLink url => exact opened _ _ sent
    | action action' => exact act_unreviewed w.app now action' n g action request sent
    | tick => exact refreshed _ sent
    | refresh => exact refreshed _ sent
    | loaded generation result =>
        dsimp only [handle] at sent
        split at sent
        · contradiction
        · exact loaded_unreviewed w.app now result n g action request sent
    | reconnected generation result =>
        dsimp only [handle] at sent
        split at sent
        · contradiction
        · cases result with
          | ok client => exact refreshed _ sent
          | error error => contradiction
    | completed generation action' result =>
        dsimp only [handle] at sent
        split at sent
        · contradiction
        · exact completed_unreviewed w.app action' result n g action request sent
    | startupCompleted sequence runtime result =>
        dsimp only [handle] at sent
        split at sent
        · contradiction
        · exact refreshed _ sent
    | field field value =>
        dsimp only [handle, App.setField] at sent
        split at sent
        · contradiction
        · split at sent <;> contradiction
    | flag field value =>
        dsimp only [handle, App.setFlag] at sent
        split at sent
        · contradiction
        · split at sent
          · exact act_unreviewed _ now _ n g action request sent
          · contradiction
    | discover path =>
        dsimp only [handle, App.discover] at sent
        split at sent
        · contradiction
        · split at sent <;> simp [App.perform, App.quiet] at sent
    | discovered generation path result =>
        dsimp only [handle] at sent
        split at sent
        · contradiction
        · exact refreshed _ sent
    | confirm => exact absurd rfl other
    | cancelConfirm => contradiction
    | copyReport =>
        dsimp only [handle] at sent
        split at sent <;> simp [App.perform, App.quiet] at sent
    | mailReport => exact opened _ _ sent
    | editDescription change =>
        dsimp only [handle, App.edit] at sent
        split at sent <;> contradiction
    | saveReport => exact opened _ _ sent
    | saveDiagnostics => exact opened _ _ sent
    | copyDiagnostics =>
        dsimp only [handle] at sent
        split at sent <;> simp [App.perform, App.quiet] at sent
    | focus previous => simp [handle, App.perform] at sent
    | exported result =>
        dsimp only [handle, App.exported] at sent
        split at sent <;> contradiction
    | dismiss => contradiction

/-! ### Waiting for a snapshot -/

theorem Inv.awaited (h : Inv w) (steady : w.app.restarting = false) : SnapshotAwaited w := by
  intro e w' waits stepped still
  obtain ⟨first, waiting⟩ := Option.isSome_iff_exists.mp waits
  have held := h.held first waiting steady
  have moved (base : App S) (old : base.online = false)
      (moves : Moves.Leaves base (update e.now w.app e.message)) :
      ∀ x ∈ (update e.now w.app e.message).2, x.2.sends = false :=
    (Moves.offline moves old).2
  cases carried : e.message.generation with
  | none => exact moved w.app held.2.1 (update_moves e.now w.app e.message carried)
  | some g =>
      by_cases current : g = w.app.generation
      · rw [current] at carried
        have settles := update_settles e.now w.app e.message carried
        refine moved (e.message.settles w.app) ?_ settles
        cases message : e.message with
        | loaded g' result =>
            cases result with
            | error error => exact held.2.1
            | ok snapshot =>
                -- the snapshot that is waited for: no one waits after it
                exfalso
                rw [message] at carried
                have same : g' = w.app.generation := by
                  simpa [Message.generation] using carried
                rcases step_source stepped with ⟨-, reply, -⟩ |
                  ⟨x, member, source, answers, rfl⟩ | ⟨x, member, source, -, answers, -⟩
                · rw [message] at reply
                  contradiction
                · rw [message] at answers
                  have poll : x.2.isPoll = true := by
                    cases hx : x.2 <;> simp_all [Task.answeredBy, Task.isPoll]
                  have late := held.2.2 x member poll
                    (by rw [answers_generation answers, carried])
                  simp [World.deliver, awaits, message, waiting, source, same, late] at still
                · rw [message] at answers
                  obtain ⟨-, g'', older, less⟩ := h.spent x member
                  rw [answers_generation answers, carried] at older
                  exact absurd (Option.some.inj older).symm (Nat.ne_of_lt less)
        | completed g' action result =>
            dsimp only [Message.settles]
            split
            · exact held.2.1
            · rfl
        | reconnected g' result => exact held.2.1
        | discovered g' path result => exact held.2.1
        | _ =>
            rw [message] at carried
            contradiction
      · rw [update_stale e.now w.app e.message g carried current]
        simp

/-- Only the launcher's restart makes the application restart. -/
theorem deliver_restarting (plain : e.message.restarts = false) :
    (update e.now w.app e.message).1.restarting = w.app.restarting := by
  cases carried : e.message.generation with
  | none => exact Moves.restarting_eq (update_moves e.now w.app e.message carried)
  | some g =>
      by_cases current : g = w.app.generation
      · rw [current] at carried
        rw [Moves.restarting_eq (update_settles e.now w.app e.message carried)]
        cases message : e.message with
        | completed g' action result =>
            rw [message] at plain
            simp [Message.settles, plain]
        | _ => rfl
      · rw [update_stale e.now w.app e.message g carried current]

theorem step_restarting (stepped : w.step e = some w') (plain : e.message.restarts = false) :
    w'.app.restarting = w.app.restarting := by
  rcases step_source stepped with ⟨-, -, rfl⟩ | ⟨x, -, -, -, rfl⟩ | ⟨x, -, -, -, -, rfl⟩
  · exact deliver_restarting plain
  · exact deliver_restarting (w := { w with outstanding := without x.1 w.outstanding }) plain
  · exact deliver_restarting (w := { w with aborted := without x.1 w.aborted }) plain

theorem run_restarting (events : List (Event S)) :
    ∀ {w w' : World S}, w.run events = some w' →
      (∀ e ∈ events, e.message.restarts = false) → w'.app.restarting = w.app.restarting := by
  induction events with
  | nil =>
      intro w w' reached _
      obtain rfl := Option.some.inj reached
      rfl
  | cons e events ih =>
      intro w w' reached plain
      obtain ⟨next, stepped, rest⟩ := Option.bind_eq_some_iff.mp reached
      rw [ih rest fun e' member => plain e' (List.mem_cons_of_mem e member)]
      exact step_restarting stepped (plain e List.mem_cons_self)

end World

/-- Every run keeps the protocol, and until a launcher restart went through no action is sent
between a completed POST and a newer snapshot. -/
theorem generation_protocol (language : Language) (client : Option S.Client)
    (connector : Option S.Connector) (contents : S.Contents) (events : List (Event S))
    (w : World S) (reached : (World.start language client connector contents).run events = some w) :
    w.Protocol ∧ ((∀ e ∈ events, e.message.restarts = false) → w.SnapshotAwaited) := by
  have inv := (World.Inv.start language client connector contents).run events reached
  refine ⟨⟨inv.pending, inv.single, inv.polling, World.stale_ignored w, World.reviewed_sent w⟩,
    fun plain => inv.awaited ?_⟩
  rw [World.run_restarting events reached plain]
  unfold World.start App.refresh
  split
  · rfl
  · split <;> rfl

/-! ## A launcher that restarts -/

/-- An idle installation whose launcher update can be finished by a restart. -/
def updated : Surface where
  Contents := Bool
  Snapshot := Unit
  Value := Unit
  Client := Unit
  Connector := Unit
  Edit := Unit
  valueEq := inferInstance
  object := ()
  table := fun _ action =>
    match action with
    | .launch => some ⟨"launch", (), "/games/msfs2024", none⟩
    | .launcher op =>
      if op = "restart" then some ⟨"launcher-update/restart", (), "/games/msfs2024", none⟩
      else none
    | _ => none
  runtime := fun loaded => if loaded then "/games/msfs2024" else ""
  hasStatus := id
  busy := fun _ => false
  keys := fun _ _ _ => ["setup", "launcher-update", "installations"]
  setupJob := fun _ => ⟨"", "", ""⟩
  snapshotRoot := fun _ => "/games/msfs2024"
  clear := fun _ => false
  extend := fun _ _ => true
  reset := fun _ contents => contents
  keepDiscoveries := fun _ contents => contents
  discovered := fun _ _ => false
  clearDiscoveries := id
  discovery := fun _ _ contents => contents
  notice := fun _ contents => contents
  completed := fun _ _ contents => contents
  deferred := fun _ => false
  jobId := fun _ => none
  checksExisting := fun _ => false
  selectable := fun _ _ => true
  chooseEdition := fun _ contents => contents
  toggle := fun _ contents => contents
  edit := fun _ contents => contents
  canEdit := fun _ _ _ => true
  field := fun _ _ contents => some contents
  flag := fun _ _ contents => contents
  planReady := fun _ => false
  mailUri := fun _ _ => none
  reportText := fun _ _ => none
  diagnosticsText := fun _ _ => none
  safeUrl := fun _ => true
  translate := fun _ text => text

/-- The first snapshot arrives, and the user asks for an action that the service completes. -/
def requested (action : Action) : List (Event updated) :=
  [⟨some 0, 1, .loaded 0 (.ok ())⟩,
    ⟨none, 2, .action action⟩,
    ⟨some 2, 3, .completed 1 action (.ok ())⟩]

def opened : World updated := World.start .en (some ()) none false

theorem generation_protocol_launch :
    ∃ w, opened.run (requested .launch) = some w ∧ w.awaiting = some 3 ∧ w.Protocol ∧
      w.SnapshotAwaited := by
  have holds :=
    generation_protocol (S := updated) .en (some ()) none false (requested .launch) _ rfl
  exact ⟨_, rfl, rfl, holds.1, holds.2 (by decide)⟩

/-- The restart leaves the status as new: the next action is sent without a newer snapshot. -/
theorem restart_sends :
    ∃ w, opened.run (requested (.launcher "restart")) = some w ∧ ¬ w.SnapshotAwaited := by
  refine ⟨_, rfl, fun held => ?_⟩
  have sent := held ⟨none, 4, .action .launch⟩ _ rfl rfl rfl _ List.mem_cons_self
  contradiction

end Flightdeck.UserInterface
