import Flightdeck.UserInterface.Moves

/-!
# Runs of the interface

Messages of the user and of the clock arrive at any time; a reply arrives at most once for each task
that was started, in any order.  A poll whose handle is dropped is aborted: its reply may still be
on the way, and no one waits for it.
-/

namespace Flightdeck.UserInterface

variable {S : Surface}

def ofGeneration (generation : Nat) (tasks : List (Nat × Task S)) : List (Nat × Task S) :=
  tasks.filter fun x => x.2.generation == some generation

theorem mem_ofGeneration {generation : Nat} {tasks : List (Nat × Task S)} {x : Nat × Task S} :
    x ∈ ofGeneration generation tasks ↔ x ∈ tasks ∧ x.2.generation = some generation := by
  simp [ofGeneration]

@[simp] theorem ofGeneration_append (generation : Nat) (l m : List (Nat × Task S)) :
    ofGeneration generation (l ++ m) = ofGeneration generation l ++ ofGeneration generation m := by
  simp [ofGeneration]

theorem ofGeneration_eq_nil {generation : Nat} {tasks : List (Nat × Task S)}
    (none : ∀ x ∈ tasks, x.2.generation ≠ some generation) :
    ofGeneration generation tasks = [] := by
  apply List.filter_eq_nil_iff.mpr
  intro x member
  simpa using none x member

theorem ofGeneration_filter (generation : Nat) (tasks : List (Nat × Task S))
    (keep : Nat × Task S → Bool) :
    ofGeneration generation (tasks.filter keep) = (ofGeneration generation tasks).filter keep := by
  unfold ofGeneration
  rw [List.filter_filter, List.filter_filter]
  congr 1
  funext x
  exact Bool.and_comm _ _

/-- What an application and its tasks keep: `out` are the tasks that still have to answer, `issued`
all that were ever started. -/
structure Good (a : App S) (out issued : List (Nat × Task S)) : Prop where
  old : ∀ x ∈ issued, ∀ g, x.2.generation = some g → g ≤ a.generation
  listed : ∀ x ∈ out, x ∈ issued
  number : ∀ x ∈ issued, x.1 < a.next
  distinct : (out.map Prod.fst).Nodup
  user : ∀ x ∈ out, x.2.isUser = true → x.2.generation = some a.generation
  pending : a.pending = true → a.polling = false ∧ ∃ x, x.2.isUser = true ∧
    ofGeneration a.generation out = [x] ∧ ofGeneration a.generation issued = [x]
  polling : a.polling = true → ∃ x, x.2.isPoll = true ∧ ofGeneration a.generation out = [x] ∧
    (x.2.abortable = true → a.poll_task = some x.1)
  idle : a.pending = false → a.polling = false → ofGeneration a.generation out = []
  handle : ∀ n, a.poll_task = some n → n < a.next ∧ ∀ x ∈ out, x.1 = n → x.2.abortable = true

namespace Good

variable {a b : App S} {out issued : List (Nat × Task S)}

theorem same (h : Good a out issued) (s : Same a b) : Good b out issued := by
  obtain ⟨generation, pending, polling, poll_task, next, -, -⟩ := s
  exact
    { old := by rw [generation]; exact h.old
      listed := h.listed
      number := by rw [next]; exact h.number
      distinct := h.distinct
      user := by rw [generation]; exact h.user
      pending := by rw [generation, pending, polling]; exact h.pending
      polling := by rw [generation, polling, poll_task]; exact h.polling
      idle := by rw [generation, pending, polling]; exact h.idle
      handle := by rw [poll_task, next]; exact h.handle }

/-- Without a pending request no task of the user is under way. -/
theorem free (h : Good a out issued) (idle : a.pending = false) (x : Nat × Task S)
    (member : x ∈ out) : x.2.isUser = false := by
  by_contra busy
  have user : x.2.isUser = true := by simpa using busy
  have present := mem_ofGeneration.mpr ⟨member, h.user x member user⟩
  cases polls : a.polling with
  | false =>
      rw [h.idle idle polls] at present
      contradiction
  | true =>
      obtain ⟨y, poll, only, -⟩ := h.polling polls
      rw [only, List.mem_singleton] at present
      subst present
      rw [Task.poll_not_user poll] at user
      contradiction

/-- Tasks of the next generation do not exist yet. -/
theorem unborn (h : Good a out issued) (tasks : List (Nat × Task S))
    (known : ∀ x ∈ tasks, x ∈ issued) : ofGeneration (a.generation + 1) tasks = [] := by
  apply ofGeneration_eq_nil
  intro x member carried
  have := h.old x (known x member) _ carried
  omega

/-- A task more, under the next number. -/
theorem numbered (h : Good a out issued) (t : Task S) :
    ((out ++ [(a.next, t)]).map Prod.fst).Nodup := by
  rw [List.map_append, List.nodup_append]
  refine ⟨h.distinct, by simp, ?_⟩
  intro n member m last same
  obtain ⟨x, found, rfl⟩ := List.mem_map.mp member
  have before := h.number x (h.listed x found)
  simp only [List.map_cons, List.map_nil, List.mem_singleton] at last
  omega

theorem listed_snoc (h : Good a out issued) (y : Nat × Task S) :
    ∀ x ∈ out ++ [y], x ∈ issued ++ [y] := by
  intro x member
  rcases List.mem_append.mp member with former | last
  · exact List.mem_append_left _ (h.listed x former)
  · exact List.mem_append_right _ last

theorem number_snoc (h : Good a out issued) (t : Task S) :
    ∀ x ∈ issued ++ [(a.next, t)], x.1 < a.next + 1 := by
  intro x member
  rcases List.mem_append.mp member with former | last
  · exact Nat.lt_succ_of_lt (h.number x former)
  · rw [List.mem_singleton.mp last]
    exact Nat.lt_succ_self _

/-- The handle that is kept is not that of a task more. -/
theorem handle_snoc (h : Good a out issued) (t : Task S) (n : Nat)
    (held : a.poll_task = some n) :
    n < a.next + 1 ∧ ∀ x ∈ out ++ [(a.next, t)], x.1 = n → x.2.abortable = true := by
  have known := h.handle n held
  refine ⟨Nat.lt_succ_of_lt known.1, fun x member same => ?_⟩
  rcases List.mem_append.mp member with former | last
  · exact known.2 x former same
  · rw [List.mem_singleton.mp last] at same
    have : n < a.next := known.1
    simp only at same
    omega

theorem aside (h : Good a out issued) {t : Task S} (none : t.generation = none) :
    Good { a with next := a.next + 1 } (out ++ [(a.next, t)]) (issued ++ [(a.next, t)]) := by
  have absent : ∀ g, ofGeneration g [(a.next, t)] = [] := by
    intro g
    simp [ofGeneration, none]
  refine
    { old := ?_, listed := h.listed_snoc _, number := h.number_snoc t, distinct := h.numbered t,
      user := ?_, pending := ?_, polling := ?_, idle := ?_, handle := h.handle_snoc t }
  · intro x member g carried
    rcases List.mem_append.mp member with former | last
    · exact h.old x former g carried
    · rw [List.mem_singleton.mp last, none] at carried
      contradiction
  · intro x member user
    rcases List.mem_append.mp member with former | last
    · exact h.user x former user
    · rw [List.mem_singleton.mp last] at user
      cases t <;> simp_all [Task.isUser, Task.generation]
  · simpa [absent] using h.pending
  · simpa [absent] using h.polling
  · simpa [absent] using h.idle

theorem turn (h : Good a out issued) (idle : a.pending = false) {poll_task : Option Nat}
    (handle : poll_task = a.poll_task ∨ poll_task = none) :
    Good { a with generation := a.generation + 1, polling := false, poll_task := poll_task }
      out issued := by
  refine
    { old := ?_, listed := h.listed, number := h.number, distinct := h.distinct,
      user := ?_, pending := ?_, polling := nofun, idle := ?_, handle := ?_ }
  · intro x member g carried
    exact Nat.le_succ_of_le (h.old x member g carried)
  · intro x member user
    rw [h.free idle x member] at user
    contradiction
  · intro pending
    rw [idle] at pending
    contradiction
  · intro _ _
    exact h.unborn out h.listed
  · intro n held
    rcases handle with kept | gone
    · exact h.handle n (by rw [← kept]; exact held)
    · rw [gone] at held
      contradiction

theorem ask (h : Good a out issued) (idle : a.pending = false) (quiet : a.polling = false)
    {t : Task S} (poll : t.isPoll = true) (carried : t.generation = some a.generation) :
    Good
      { a with
        polling := true
        poll_task := if t.abortable then some a.next else a.poll_task
        next := a.next + 1 }
      (out ++ [(a.next, t)]) (issued ++ [(a.next, t)]) := by
  refine
    { old := ?_, listed := h.listed_snoc _, number := h.number_snoc t, distinct := h.numbered t,
      user := ?_, pending := ?_, polling := ?_, idle := nofun, handle := ?_ }
  · intro x member g present
    rcases List.mem_append.mp member with former | last
    · exact h.old x former g present
    · rw [List.mem_singleton.mp last, carried] at present
      exact Nat.le_of_eq (Option.some.inj present).symm
  · intro x member user
    rcases List.mem_append.mp member with former | last
    · exact h.user x former user
    · rw [List.mem_singleton.mp last, Task.poll_not_user poll] at user
      contradiction
  · intro pending
    rw [idle] at pending
    contradiction
  · intro _
    refine ⟨(a.next, t), poll, ?_, ?_⟩
    · rw [ofGeneration_append, h.idle idle quiet]
      simp [ofGeneration, carried]
    · intro abortable
      simp only at abortable
      simp [abortable]
  · intro n held
    by_cases abortable : t.abortable = true
    · simp only [abortable, if_true, Option.some.injEq] at held
      subst held
      refine ⟨Nat.lt_succ_self _, fun x member same => ?_⟩
      rcases List.mem_append.mp member with former | last
      · have := h.number x (h.listed x former)
        omega
      · rw [List.mem_singleton.mp last]
        exact abortable
    · simp only [abortable] at held
      exact h.handle_snoc t n held

theorem send (h : Good a out issued) (idle : a.pending = false) {t : Task S}
    (user : t.isUser = true) (carried : t.generation = some (a.generation + 1))
    {poll_task : Option Nat} (handle : poll_task = a.poll_task ∨ poll_task = none) :
    Good
      { a with
        generation := a.generation + 1
        pending := true
        polling := false
        poll_task := poll_task
        next := a.next + 1 }
      (out ++ [(a.next, t)]) (issued ++ [(a.next, t)]) := by
  have alone (tasks : List (Nat × Task S)) (known : ∀ x ∈ tasks, x ∈ issued) :
      ofGeneration (a.generation + 1) (tasks ++ [(a.next, t)]) = [(a.next, t)] := by
    rw [ofGeneration_append, h.unborn tasks known]
    simp [ofGeneration, carried]
  refine
    { old := ?_, listed := h.listed_snoc _, number := h.number_snoc t, distinct := h.numbered t,
      user := ?_, pending := ?_, polling := nofun, idle := nofun, handle := ?_ }
  · intro x member g present
    rcases List.mem_append.mp member with former | last
    · exact Nat.le_succ_of_le (h.old x former g present)
    · rw [List.mem_singleton.mp last, carried] at present
      exact Nat.le_of_eq (Option.some.inj present).symm
  · intro x member asked
    rcases List.mem_append.mp member with former | last
    · rw [h.free idle x former] at asked
      contradiction
    · rw [List.mem_singleton.mp last]
      exact carried
  · intro _
    exact ⟨rfl, (a.next, t), user, alone out h.listed, alone issued fun _ member => member⟩
  · intro n held
    rcases handle with kept | gone
    · exact h.handle_snoc t n (by rw [← kept]; exact held)
    · rw [gone] at held
      contradiction

/-- The invariant holds after any moves, with the tasks they started. -/
theorem moves {l : List (Nat × Task S)} (m : Moves a l b) :
    ∀ {out issued}, Good a out issued → Good b (out ++ l) (issued ++ l) := by
  induction m with
  | still s =>
      intro out issued h
      rw [List.append_nil, List.append_nil]
      exact h.same s
  | aside none _ s => exact fun h => (h.aside none).same s
  | turn poll_task idle handle s =>
      intro out issued h
      rw [List.append_nil, List.append_nil]
      exact (h.turn idle handle).same s
  | ask idle quiet poll carried s => exact fun h => (h.ask idle quiet poll carried).same s
  | send poll_task idle _ user carried handle s =>
      exact fun h => (h.send idle user carried handle).same s
  | both _ _ first second =>
      intro out issued h
      rw [← List.append_assoc, ← List.append_assoc]
      exact second (first h)

/-- Tasks of other generations may be left out. -/
theorem drop (h : Good a out issued) (keep : Nat × Task S → Bool)
    (needed : ∀ x ∈ out, x.2.generation = some a.generation → keep x = true) :
    Good a (out.filter keep) issued := by
  have kept : ofGeneration a.generation (out.filter keep) = ofGeneration a.generation out := by
    rw [ofGeneration_filter]
    apply List.filter_eq_self.mpr
    intro x member
    have found := mem_ofGeneration.mp member
    exact needed x found.1 found.2
  have within : ∀ x ∈ out.filter keep, x ∈ out := fun x member => (List.mem_filter.mp member).1
  exact
    { old := h.old
      listed := fun x member => h.listed x (within x member)
      number := h.number
      distinct := h.distinct.sublist (List.Sublist.map _ List.filter_sublist)
      user := fun x member => h.user x (within x member)
      pending := by rw [kept]; exact h.pending
      polling := by rw [kept]; exact h.polling
      idle := by rw [kept]; exact h.idle
      handle := fun n held =>
        ⟨(h.handle n held).1, fun x member => (h.handle n held).2 x (within x member)⟩ }

/-- The task of the present generation is the only one. -/
theorem only (h : Good a out issued) {x : Nat × Task S} (member : x ∈ out)
    (carried : x.2.generation = some a.generation) : ofGeneration a.generation out = [x] := by
  have present := mem_ofGeneration.mpr ⟨member, carried⟩
  cases pends : a.pending with
  | true =>
      obtain ⟨-, y, -, alone, -⟩ := h.pending pends
      rw [alone, List.mem_singleton] at present
      rw [alone, present]
  | false =>
      cases polls : a.polling with
      | true =>
          obtain ⟨y, -, alone, -⟩ := h.polling polls
          rw [alone, List.mem_singleton] at present
          rw [alone, present]
      | false =>
          rw [h.idle pends polls] at present
          contradiction

/-- A poll of the present generation is the one whose handle is kept. -/
theorem kept (h : Good a out issued) {x : Nat × Task S} (member : x ∈ out)
    (carried : x.2.generation = some a.generation) (abortable : x.2.abortable = true) :
    a.poll_task = some x.1 := by
  have alone := h.only member carried
  have poll : x.2.isPoll = true := by
    cases hx : x.2 <;> simp_all [Task.abortable, Task.isPoll]
  cases pends : a.pending with
  | true =>
      obtain ⟨-, y, user, one, -⟩ := h.pending pends
      rw [alone] at one
      have same : x = y := by simpa using one
      rw [← same, Task.poll_not_user poll] at user
      contradiction
  | false =>
      cases polls : a.polling with
      | true =>
          obtain ⟨y, -, one, held⟩ := h.polling polls
          rw [alone] at one
          have same : x = y := by simpa using one
          rw [same] at abortable ⊢
          exact held abortable
      | false =>
          rw [h.idle pends polls] at alone
          contradiction

/-- The task of the present generation has answered. -/
theorem answered (h : Good a out issued) {x : Nat × Task S} (member : x ∈ out)
    (carried : x.2.generation = some a.generation) (generation : b.generation = a.generation)
    (next : b.next = a.next) (pending : b.pending = false) (polling : b.polling = false)
    (handle : b.poll_task = a.poll_task ∨ b.poll_task = none) :
    Good b (out.filter fun y => y.1 != x.1) issued := by
  have within : ∀ y ∈ out.filter fun y => y.1 != x.1, y ∈ out :=
    fun y found => (List.mem_filter.mp found).1
  have gone : ofGeneration a.generation (out.filter fun y => y.1 != x.1) = [] := by
    rw [ofGeneration_filter, h.only member carried]
    simp
  refine
    { old := by rw [generation]; exact h.old
      listed := fun y found => h.listed y (within y found)
      number := by rw [next]; exact h.number
      distinct := h.distinct.sublist (List.Sublist.map _ List.filter_sublist)
      user := ?_
      pending := by rw [pending]; exact nofun
      polling := by rw [polling]; exact nofun
      idle := by rw [generation]; exact fun _ _ => gone
      handle := ?_ }
  · intro y found user
    rw [generation]
    exact h.user y (within y found) user
  · intro n held
    rcases handle with same | none
    · rw [same] at held
      rw [next]
      exact ⟨(h.handle n held).1, fun y found => (h.handle n held).2 y (within y found)⟩
    · rw [none] at held
      contradiction

end Good

end Flightdeck.UserInterface
