import Flightdeck.StoreCheck.Reports

/-!
# A helper process

`check_process` reads what a helper says until it has ended, or until something is wrong.
-/

namespace Flightdeck.StoreCheck

open StrictJson (Bytes Value Library)

/-- A read of the helper's pipe; no data is the end. -/
inductive Read where
  | data (bytes : Bytes)
  | interrupted
  | failed

/-- `try_wait` -/
inductive Waited where
  | alive
  | exited (success : Bool)
  | failed

/-- One round of the loop: what is read until the pipe would block, and what is waited for. -/
structure Turn where
  reads : List Read
  waited : Waited

structure Helper where
  /-- its folders are there, it is started and has taken its input -/
  started : Bool
  /-- the rounds before the deadline -/
  turns : List Turn
  /-- `terminate_group` succeeds -/
  cleaned : Bool

/-- The local variables of the loop. -/
structure Output where
  pending_bytes : Bytes
  total : Nat
  ended : Bool
  status : Option Bool

def Output.start : Output := ⟨[], 0, false, none⟩

/-- A part of the loop goes on, or the function returns: a code, or nothing where it fails. -/
inductive Flow where
  | next (output : Output)
  | exit (result : Option String)

/-- The lines that have ended. -/
def linesOf (bytes : Bytes) : List Bytes := (cutLines NEWLINE bytes).1

/-- What has not ended. -/
def restOf (bytes : Bytes) : Bytes := (cutLines NEWLINE bytes).2

section loop

variable [Library] (allowed : List String)

def take (bytes : Bytes) (o : Output) (s : Steps) : Steps × Flow :=
  if o.total + bytes.length > 65536 then (s, .exit (some "error"))
  else
    match drain allowed (linesOf (o.pending_bytes ++ bytes)) s with
    | (s, some code) => (s, .exit (some code))
    | (s, none) =>
      if (restOf (o.pending_bytes ++ bytes)).length > 1024 then (s, .exit (some "error"))
      else
        (s, .next { o with
          total := o.total + bytes.length, pending_bytes := restOf (o.pending_bytes ++ bytes) })

def readAll : List Read → Output → Steps → Steps × Flow
  | [], o, s => (s, .next o)
  | .interrupted :: reads, o, s => readAll reads o s
  | .failed :: _, _, s => (s, .exit none)
  | .data [] :: _, o, s => (s, .next { o with ended := true })
  | .data (byte :: bytes) :: reads, o, s =>
    match take allowed (byte :: bytes) o s with
    | (s, .next o) => readAll reads o s
    | (s, .exit result) => (s, .exit result)

/-- The check's rows, and how often `cancel` was looked at. -/
structure Check where
  now : Nat
  steps : Steps

/-- `cancel` is what each look at the flag gives. -/
def loop (cancel : Nat → Bool) : List Turn → Output → Check → Check × Option String
  | [], _, c => (⟨c.now + 1, c.steps⟩, some (if cancel c.now then "cancelled" else "timeout"))
  | turn :: turns, o, c =>
    if cancel c.now then (⟨c.now + 1, c.steps⟩, some "cancelled")
    else
      match readAll allowed turn.reads o c.steps with
      | (s, .exit result) => (⟨c.now + 1, s⟩, result)
      | (s, .next o) =>
        match o.ended, o.status with
        | true, some success =>
          (⟨c.now + 1, s⟩,
            some (if success && o.pending_bytes.isEmpty then "available" else "error"))
        | _, _ =>
          match turn.waited with
          | .failed => (⟨c.now + 1, s⟩, none)
          | .alive => loop cancel turns { o with status := none } ⟨c.now + 1, s⟩
          | .exited success => loop cancel turns { o with status := some success } ⟨c.now + 1, s⟩

def check_process (cancel : Nat → Bool) (helper : Helper) (payload : Bytes) (c : Check) :
    Check × Option String :=
  if payload.length > 4096 || !helper.started then (c, none)
  else
    match loop allowed cancel helper.turns .start c with
    | (c, none) => (c, none)
    | (c, some code) => if helper.cleaned then (c, some code) else (c, none)

end loop

/-! ## What a helper wrote -/

/-- The bytes of some reads, and whether they reached the end; nothing where one failed. -/
def readBytes : List Read → Bytes × Option Bool
  | [] => ([], some false)
  | .interrupted :: reads => readBytes reads
  | .failed :: _ => ([], none)
  | .data [] :: _ => ([], some true)
  | .data (byte :: bytes) :: reads =>
    (byte :: bytes ++ (readBytes reads).1, (readBytes reads).2)

inductive End where
  | timeout
  | failed
  | exited (success : Bool)
  deriving DecidableEq

def after (bytes : Bytes) (rest : Bytes × End) : Bytes × End := (bytes ++ rest.1, rest.2)

/-- All that is read, and how the reading ends, if nothing is refused. -/
def reading : List Turn → Bool → Option Bool → Bytes × End
  | [], _, _ => ([], .timeout)
  | turn :: turns, ended, status =>
    match (readBytes turn.reads).2 with
    | none => ((readBytes turn.reads).1, .failed)
    | some last =>
      match ended || last, status with
      | true, some success => ((readBytes turn.reads).1, .exited success)
      | ended, _ =>
        match turn.waited with
        | .failed => ((readBytes turn.reads).1, .failed)
        | .alive => after (readBytes turn.reads).1 (reading turns ended none)
        | .exited success => after (readBytes turn.reads).1 (reading turns ended (some success))

theorem reading_failed {turn : Turn} (failed : (readBytes turn.reads).2 = none)
    (turns : List Turn) (ended : Bool) (status : Option Bool) :
    reading (turn :: turns) ended status = ((readBytes turn.reads).1, .failed) := by
  unfold reading
  rw [failed]

theorem reading_ended {turn : Turn} {ended last : Bool} {status : Option Bool} {success : Bool}
    (read : (readBytes turn.reads).2 = some last) (all : (ended || last) = true)
    (exited : status = some success) (turns : List Turn) :
    reading (turn :: turns) ended status = ((readBytes turn.reads).1, .exited success) := by
  unfold reading
  rw [read, exited]
  dsimp only
  rw [all]

theorem reading_waiting {turn : Turn} {ended last : Bool} {status : Option Bool}
    (read : (readBytes turn.reads).2 = some last)
    (waiting : (ended || last) = false ∨ status = none) (turns : List Turn) :
    reading (turn :: turns) ended status = match turn.waited with
      | .failed => ((readBytes turn.reads).1, .failed)
      | .alive => after (readBytes turn.reads).1 (reading turns (ended || last) none)
      | .exited success =>
        after (readBytes turn.reads).1 (reading turns (ended || last) (some success)) := by
  conv_lhs => unfold reading
  rw [read]
  dsimp only
  rcases waiting with waiting | waiting
  · rw [waiting]
  · rw [waiting]
    cases ended || last with
    | false => rfl
    | true => rfl

/-- Where the helper exits, the first reads did not fail, and what they gave comes first. -/
theorem reading_exited {turn : Turn} {turns : List Turn} {ended : Bool} {status : Option Bool}
    {success : Bool} (exited : (reading (turn :: turns) ended status).2 = .exited success) :
    (readBytes turn.reads).2 ≠ none ∧
      ∃ more, (reading (turn :: turns) ended status).1 = (readBytes turn.reads).1 ++ more := by
  cases read : (readBytes turn.reads).2 with
  | none =>
    rw [reading_failed read] at exited
    contradiction
  | some last =>
    refine ⟨by simp, ?_⟩
    by_cases waiting : (ended || last) = false ∨ status = none
    · rw [reading_waiting read waiting] at exited ⊢
      cases waited : turn.waited with
      | failed =>
        rw [waited] at exited
        contradiction
      | alive => exact ⟨_, rfl⟩
      | exited => exact ⟨_, rfl⟩
    · simp only [not_or, Bool.not_eq_false] at waiting
      cases known : status with
      | none => exact absurd known waiting.2
      | some success =>
        rw [reading_ended read waiting.1 rfl]
        exact ⟨[], (List.append_nil _).symm⟩

/-- More bytes make more lines. -/
theorem linesOf_append (a b : Bytes) : linesOf (a ++ b) = linesOf a ++ linesOf (restOf a ++ b) ∧
    restOf (a ++ b) = restOf (restOf a ++ b) := by
  have cut : cutLines NEWLINE (restOf a) = ([], restOf a) :=
    cutLines_of_notMem NEWLINE (notMem_cutLines NEWLINE a).2
  unfold linesOf restOf at *
  rw [cutLines_append, cutLines_append NEWLINE (cutLines NEWLINE a).2, cut]
  rcases cutLines NEWLINE b with ⟨_ | ⟨line, lines⟩, last⟩
  · simp [joinLines]
  · simp [joinLines]

/-- The rest is the beginning of what comes next. -/
theorem restOf_prefix (a b : Bytes) :
    (∃ line ∈ linesOf (a ++ b), restOf a <+: line) ∨ restOf a <+: restOf (a ++ b) := by
  unfold linesOf restOf
  rw [cutLines_append]
  rcases cutLines NEWLINE b with ⟨_ | ⟨line, lines⟩, last⟩
  · exact .inr (List.prefix_append ..)
  · refine .inl ⟨(cutLines NEWLINE a).2 ++ line, ?_, List.prefix_append ..⟩
    simp [joinLines]

section loop

variable [Library] {allowed : List String}

theorem drain_append (first second : List Bytes) (s : Steps) :
    drain allowed (first ++ second) s =
      if (drain allowed first s).2 = none then drain allowed second (drain allowed first s).1
      else drain allowed first s := by
  induction first generalizing s with
  | nil => simp [drain]
  | cons line lines ih =>
    simp only [List.cons_append, drain]
    split
    · simp
    · split
      · simp
      · split
        · simp
        · exact ih _

/-- A line never says that all is in order. -/
theorem drain_code {lines : List Bytes} {s : Steps} :
    (drain allowed lines s).2 ≠ some "available" := by
  induction lines generalizing s with
  | nil => simp [drain]
  | cons line lines ih =>
    unfold drain
    split
    · simp
    · split
      · simp
      · split
        · next code failure =>
          intro same
          cases Option.some.inj same
          unfold check_failure at failure
          split at failure
          · simp at failure
          · contradiction
        · exact ih

/-- Lines that are drained are short. -/
theorem drain_short {lines : List Bytes} {s : Steps} (clear : (drain allowed lines s).2 = none) :
    ∀ line ∈ lines, line.length ≤ 1024 := by
  induction lines generalizing s with
  | nil => simp
  | cons line lines ih =>
    unfold drain at clear
    split at clear
    · contradiction
    · next short =>
      split at clear
      · contradiction
      · split at clear
        · contradiction
        · intro other there
          rcases List.mem_cons.mp there with rfl | there
          · exact Nat.le_of_not_lt short
          · exact ih clear other there

/-! ## Reads -/

/-- Nothing in the bytes is refused. -/
def Fine (allowed : List String) (s : Steps) (bytes : Bytes) : Prop :=
  bytes.length ≤ 65536 ∧ (drain allowed (linesOf bytes) s).2 = none ∧ (restOf bytes).length ≤ 1024

theorem Fine.prefix {s : Steps} {a b : Bytes} (fine : Fine allowed s (a ++ b)) :
    Fine allowed s a := by
  have ⟨size, clear, rest⟩ := fine
  rw [List.length_append] at size
  have clear' := clear
  rw [(linesOf_append a b).1, drain_append] at clear'
  refine ⟨by omega, ?_, ?_⟩
  · by_cases first : (drain allowed (linesOf a) s).2 = none
    · exact first
    · rwa [if_neg first] at clear'
  · rcases restOf_prefix a b with ⟨line, there, starts⟩ | starts
    · have short := drain_short clear line there
      have := starts.length_le
      omega
    · have := starts.length_le
      omega

/-- The variables after these bytes. -/
structure Held (allowed : List String) (start : Steps) (bytes : Bytes) (o : Output) (s : Steps) :
    Prop where
  total : o.total = bytes.length
  rest : o.pending_bytes = restOf bytes
  steps : drain allowed (linesOf bytes) start = (s, none)
  fine : Fine allowed start bytes

theorem Held.take {start s : Steps} {seen : Bytes} {o : Output}
    (held : Held allowed start seen o s) (bytes : Bytes) :
    (∃ s' o', StoreCheck.take allowed bytes o s = (s', .next o') ∧
      Held allowed start (seen ++ bytes) o' s' ∧ o'.ended = o.ended ∧ o'.status = o.status) ∨
    ∃ s' code, StoreCheck.take allowed bytes o s = (s', .exit (some code)) ∧
      code ≠ "available" ∧ ¬ Fine allowed start (seen ++ bytes) := by
  have lines := linesOf_append seen bytes
  have drained : drain allowed (linesOf (seen ++ bytes)) start =
      drain allowed (linesOf (o.pending_bytes ++ bytes)) s := by
    rw [lines.1, drain_append, held.steps, held.rest]
    rfl
  have rest : restOf (seen ++ bytes) = restOf (o.pending_bytes ++ bytes) := by
    rw [lines.2, held.rest]
  unfold StoreCheck.take
  by_cases large : o.total + bytes.length > 65536
  · rw [if_pos large]
    refine .inr ⟨s, "error", rfl, by decide, ?_⟩
    intro fine
    have size := fine.1
    rw [List.length_append, ← held.total] at size
    omega
  · rw [if_neg large]
    have size : (seen ++ bytes).length ≤ 65536 := by
      rw [List.length_append, ← held.total]
      omega
    rcases result : drain allowed (linesOf (o.pending_bytes ++ bytes)) s with ⟨s', _ | code⟩
    · by_cases long : (restOf (o.pending_bytes ++ bytes)).length > 1024
      · refine .inr ⟨s', "error", if_pos long, by decide, ?_⟩
        intro fine
        have short := fine.2.2
        rw [rest] at short
        omega
      · refine .inl ⟨s', _, if_neg long, ?_, rfl, rfl⟩
        have clear := drained.trans result
        have short : (restOf (seen ++ bytes)).length ≤ 1024 := by
          rw [rest]
          omega
        exact ⟨by simp [held.total], rest.symm, clear, size, by rw [clear], short⟩
    · refine .inr ⟨s', code, rfl, ?_, ?_⟩
      · intro same
        have never : (drain allowed (linesOf (o.pending_bytes ++ bytes)) s).2 ≠
            some "available" := drain_code
        rw [result, same] at never
        exact never rfl
      · intro fine
        have clear := fine.2.1
        rw [drained, result] at clear
        contradiction

theorem Held.readAll {start s : Steps} {seen : Bytes} {o : Output}
    (held : Held allowed start seen o s) (reads : List Read) :
    (∃ last s' o', (readBytes reads).2 = some last ∧
      StoreCheck.readAll allowed reads o s = (s', .next o') ∧
      Held allowed start (seen ++ (readBytes reads).1) o' s' ∧
      o'.ended = (o.ended || last) ∧ o'.status = o.status) ∨
    ∃ s' result, StoreCheck.readAll allowed reads o s = (s', .exit result) ∧
      result ≠ some "available" ∧
      ((readBytes reads).2 = none ∨ ¬ Fine allowed start (seen ++ (readBytes reads).1)) := by
  induction reads generalizing seen o s with
  | nil => exact .inl ⟨false, s, o, rfl, rfl, by simpa [readBytes] using held, by simp, rfl⟩
  | cons read reads ih =>
    cases read with
    | interrupted => exact ih held
    | failed => exact .inr ⟨s, none, rfl, by simp, .inl rfl⟩
    | data bytes =>
      cases bytes with
      | nil =>
        refine .inl ⟨true, s, { o with ended := true }, rfl, rfl, ?_, by simp, rfl⟩
        have same : seen ++ (readBytes (.data [] :: reads)).1 = seen := List.append_nil seen
        rw [same]
        exact ⟨held.total, held.rest, held.steps, held.fine⟩
      | cons byte bytes =>
        have all : seen ++ (readBytes (.data (byte :: bytes) :: reads)).1 =
            (seen ++ byte :: bytes) ++ (readBytes reads).1 :=
          (List.append_assoc ..).symm
        rcases held.take (byte :: bytes) with
          ⟨s', o', taken, held', ended, status⟩ | ⟨s', code, taken, other, refused⟩
        · have step : StoreCheck.readAll allowed (.data (byte :: bytes) :: reads) o s =
              StoreCheck.readAll allowed reads o' s' := by
            show (match StoreCheck.take allowed (byte :: bytes) o s with
              | (s, .next o) => StoreCheck.readAll allowed reads o s
              | (s, .exit result) => (s, .exit result)) = _
            rw [taken]
          rw [step, all, ← ended, ← status]
          exact ih held'
        · refine .inr ⟨s', some code, ?_, by simpa using other, .inr ?_⟩
          · show (match StoreCheck.take allowed (byte :: bytes) o s with
              | (s, .next o) => StoreCheck.readAll allowed reads o s
              | (s, .exit result) => (s, .exit result)) = _
            rw [taken]
          · rw [all]
            exact fun fine => refused fine.prefix

/-! ## The loop -/

theorem Moves.take (allowed : List String) (bytes : Bytes) (o : Output) (s : Steps) :
    Moves allowed s (StoreCheck.take allowed bytes o s).1 := by
  unfold StoreCheck.take
  split
  · exact .refl allowed s
  · have moves : Moves allowed s
        (StoreCheck.drain allowed (linesOf (o.pending_bytes ++ bytes)) s).1 := .drain _ s
    rcases result : StoreCheck.drain allowed (linesOf (o.pending_bytes ++ bytes)) s with
      ⟨s', _ | code⟩
    · rw [result] at moves
      dsimp only
      split
      · exact moves
      · exact moves
    · rw [result] at moves
      exact moves

theorem Moves.readAll (allowed : List String) (reads : List Read) (o : Output) (s : Steps) :
    Moves allowed s (StoreCheck.readAll allowed reads o s).1 := by
  induction reads generalizing o s with
  | nil => exact .refl allowed s
  | cons read reads ih =>
    cases read with
    | interrupted => exact ih o s
    | failed => exact .refl allowed s
    | data bytes =>
      cases bytes with
      | nil => exact .refl allowed s
      | cons byte bytes =>
        have moves := Moves.take allowed (byte :: bytes) o s
        unfold StoreCheck.readAll
        rcases result : StoreCheck.take allowed (byte :: bytes) o s with ⟨s', o' | _⟩
        · rw [result] at moves
          exact moves.trans (ih o' s')
        · rw [result] at moves
          exact moves

variable {cancel : Nat → Bool}

/-- What one round of the loop does. -/
inductive Round (allowed : List String) (cancel : Nat → Bool) (turn : Turn) (turns : List Turn)
    (o : Output) (c : Check) : Check × Option String → Prop
  | cancelled : cancel c.now = true →
      Round allowed cancel turn turns o c (⟨c.now + 1, c.steps⟩, some "cancelled")
  | exit (s : Steps) (result : Option String) : cancel c.now = false →
      readAll allowed turn.reads o c.steps = (s, .exit result) →
      Round allowed cancel turn turns o c (⟨c.now + 1, s⟩, result)
  | ended (s : Steps) (o' : Output) (success : Bool) : cancel c.now = false →
      readAll allowed turn.reads o c.steps = (s, .next o') → o'.ended = true →
      o'.status = some success → Round allowed cancel turn turns o c (⟨c.now + 1, s⟩,
        some (if success && o'.pending_bytes.isEmpty then "available" else "error"))
  | lost (s : Steps) (o' : Output) : cancel c.now = false →
      readAll allowed turn.reads o c.steps = (s, .next o') →
      (o'.ended = false ∨ o'.status = none) → turn.waited = .failed →
      Round allowed cancel turn turns o c (⟨c.now + 1, s⟩, none)
  | next (s : Steps) (o' : Output) (status : Option Bool) : cancel c.now = false →
      readAll allowed turn.reads o c.steps = (s, .next o') →
      (o'.ended = false ∨ o'.status = none) →
      (turn.waited = .alive ∧ status = none ∨ ∃ success, turn.waited = .exited success ∧
        status = some success) →
      Round allowed cancel turn turns o c
        (loop allowed cancel turns { o' with status := status } ⟨c.now + 1, s⟩)

theorem round (allowed : List String) (cancel : Nat → Bool) (turn : Turn) (turns : List Turn)
    (o : Output) (c : Check) :
    Round allowed cancel turn turns o c (loop allowed cancel (turn :: turns) o c) := by
  unfold loop
  cases now : cancel c.now with
  | true => exact .cancelled now
  | false =>
    rw [if_neg Bool.false_ne_true]
    rcases read : readAll allowed turn.reads o c.steps with ⟨s, o' | result⟩
    · dsimp only
      split
      · next success ended status => exact .ended s o' success now read ended status
      · next before =>
        have waiting : o'.ended = false ∨ o'.status = none := by
          cases ended : o'.ended with
          | false => exact .inl rfl
          | true =>
            cases status : o'.status with
            | none => exact .inr rfl
            | some success => exact absurd status (before success ended)
        cases waited : turn.waited with
        | failed => exact .lost s o' now read waiting waited
        | alive => exact .next s o' none now read waiting (.inl ⟨waited, rfl⟩)
        | exited success =>
          exact .next s o' (some success) now read waiting (.inr ⟨success, waited, rfl⟩)
    · exact .exit s result now read

theorem loop_now (turns : List Turn) (o : Output) (c : Check) :
    c.now < (loop allowed cancel turns o c).1.now := by
  induction turns generalizing o c with
  | nil => exact Nat.lt_succ_self _
  | cons turn turns ih =>
    have step := round allowed cancel turn turns o c
    generalize loop allowed cancel (turn :: turns) o c = result at step
    cases step with
    | cancelled | exit | ended | lost => exact Nat.lt_succ_self _
    | next s o' status =>
      have later := ih { o' with status := status } ⟨c.now + 1, s⟩
      dsimp only at later
      omega

theorem Moves.loop (turns : List Turn) (o : Output) (c : Check) :
    Moves allowed c.steps (StoreCheck.loop allowed cancel turns o c).1.steps := by
  induction turns generalizing o c with
  | nil => exact .refl allowed c.steps
  | cons turn turns ih =>
    have moves := Moves.readAll allowed turn.reads o c.steps
    have step := round allowed cancel turn turns o c
    generalize StoreCheck.loop allowed cancel (turn :: turns) o c = result at step
    cases step with
    | cancelled => exact .refl allowed c.steps
    | exit s result _ read | ended s o' _ _ read | lost s o' _ read =>
      rw [read] at moves
      exact moves
    | next s o' status _ read =>
      rw [read] at moves
      exact moves.trans (ih { o' with status := status } ⟨c.now + 1, s⟩)

/-- The whole output is in order: it ends with its last line, and every line is accepted. -/
def Whole (allowed : List String) (start s : Steps) (bytes : Bytes) : Prop :=
  bytes.length ≤ 65536 ∧ restOf bytes = [] ∧ drain allowed (linesOf bytes) start = (s, none)

theorem Whole.fine {start s : Steps} {bytes : Bytes} (whole : Whole allowed start s bytes) :
    Fine allowed start bytes :=
  ⟨whole.1, by rw [whole.2.2], by simp [whole.2.1]⟩

/-- Without cancellation the helper is in order when it exits well after a whole output. -/
theorem loop_available {start : Steps} {turns : List Turn} {seen : Bytes} {o : Output} {c : Check}
    (held : Held allowed start seen o c.steps)
    (quiet : ∀ n, n < (loop allowed cancel turns o c).1.now → cancel n = false) :
    ((loop allowed cancel turns o c).2 = some "available" ↔
      (reading turns o.ended o.status).2 = .exited true ∧
        ∃ s, Whole allowed start s (seen ++ (reading turns o.ended o.status).1)) ∧
    ((loop allowed cancel turns o c).2 = some "available" →
      Whole allowed start (loop allowed cancel turns o c).1.steps
        (seen ++ (reading turns o.ended o.status).1)) := by
  induction turns generalizing seen o c with
  | nil =>
    have other : (loop allowed cancel [] o c).2 ≠ some "available" := by
      unfold loop
      split <;> simp
    simp [other, reading]
  | cons turn turns ih =>
    have step := round allowed cancel turn turns o c
    have later : c.now < (loop allowed cancel (turn :: turns) o c).1.now := loop_now ..
    have looked := quiet c.now later
    generalize loop allowed cancel (turn :: turns) o c = result at step quiet ⊢
    rcases held.readAll turn.reads with
      ⟨last, s', o', bytes, read, held', ended, status⟩ | ⟨s', r, read, other, refused⟩
    · cases step with
      | cancelled now => simp [looked] at now
      | exit s result _ read' => simp [read] at read'
      | ended s o'' success _ read' ended' status' =>
        cases (read.symm.trans read')
        rw [reading_ended bytes (ended.symm.trans ended') (status.symm.trans status')]
        cases success with
        | false => simp
        | true =>
          have whole : o'.pending_bytes = [] →
              Whole allowed start s' (seen ++ (readBytes turn.reads).1) := by
            rw [held'.rest]
            exact fun rest => ⟨held'.fine.1, rest, held'.steps⟩
          have rest : (∃ s, Whole allowed start s (seen ++ (readBytes turn.reads).1)) →
              o'.pending_bytes = [] := by
            rintro ⟨s, whole⟩
            rw [held'.rest]
            exact whole.2.1
          by_cases empty : o'.pending_bytes = []
          · simp only [empty, List.isEmpty_nil, Bool.and_self, if_true, true_iff, true_and]
            exact ⟨⟨s', whole empty⟩, fun _ => whole empty⟩
          · have other : ¬ ∃ s, Whole allowed start s (seen ++ (readBytes turn.reads).1) :=
              fun all => empty (rest all)
            simp [empty, other]
      | lost s o'' _ read' waiting waited =>
        cases (read.symm.trans read')
        rw [ended, status] at waiting
        rw [reading_waiting bytes waiting, waited]
        simp
      | next s o'' status'' _ read' waiting waited =>
        cases (read.symm.trans read')
        rw [ended, status] at waiting
        have same : reading (turn :: turns) o.ended o.status =
            after (readBytes turn.reads).1 (reading turns o'.ended status'') := by
          rw [reading_waiting bytes waiting, ended]
          rcases waited with ⟨waited, rfl⟩ | ⟨success, waited, rfl⟩
          · rw [waited]
          · rw [waited]
        have next := ih (o := { o' with status := status'' }) (c := ⟨c.now + 1, s'⟩)
          ⟨held'.total, held'.rest, held'.steps, held'.fine⟩ quiet
        rw [same, after, ← List.append_assoc]
        exact next
    · cases step with
      | cancelled now => simp [looked] at now
      | exit s result _ read' =>
        cases (read.symm.trans read')
        refine ⟨⟨fun available => absurd available other, ?_⟩,
          fun available => absurd available other⟩
        · rintro ⟨exited, s, whole⟩
          have ⟨fine, more, all⟩ := reading_exited exited
          rw [all, ← List.append_assoc] at whole
          rcases refused with failed | refused
          · exact absurd failed fine
          · exact absurd whole.fine.prefix refused
      | ended s o'' success _ read' | lost s o'' _ read' | next s o'' status'' _ read' =>
        simp [read] at read'

/-! ## The process -/

theorem Moves.check_process (helper : Helper) (payload : Bytes) (c : Check) :
    Moves allowed c.steps (StoreCheck.check_process allowed cancel helper payload c).1.steps := by
  have moves : Moves allowed c.steps
      (StoreCheck.loop allowed cancel helper.turns .start c).1.steps := .loop ..
  unfold StoreCheck.check_process
  split
  · exact .refl allowed c.steps
  · rcases result : StoreCheck.loop allowed cancel helper.turns .start c with ⟨c', _ | code⟩
    · rw [result] at moves
      exact moves
    · rw [result] at moves
      dsimp only
      split
      · exact moves
      · exact moves

theorem check_process_now (helper : Helper) (payload : Bytes) (c : Check) :
    c.now ≤ (check_process allowed cancel helper payload c).1.now := by
  have later : c.now < (loop allowed cancel helper.turns .start c).1.now := loop_now ..
  unfold check_process
  split
  · exact Nat.le_refl _
  · rcases result : loop allowed cancel helper.turns .start c with ⟨c', _ | code⟩
    · rw [result] at later
      exact Nat.le_of_lt later
    · rw [result] at later
      dsimp only
      split
      · exact Nat.le_of_lt later
      · exact Nat.le_of_lt later

/-- What a helper in order has done, with what it reported. -/
structure Helper.Complete (allowed : List String) (helper : Helper) (reports : List Report) :
    Prop where
  started : helper.started = true
  exited : (reading helper.turns false none).2 = .exited true
  size : (reading helper.turns false none).1.length ≤ 65536
  ended : restOf (reading helper.turns false none).1 = []
  accepted : Accepted allowed (linesOf (reading helper.turns false none).1) reports
  consistent : Consistent reports
  cleaned : helper.cleaned = true

theorem Held.start (allowed : List String) (s : Steps) : Held allowed s [] .start s where
  total := rfl
  rest := rfl
  steps := rfl
  fine := ⟨Nat.zero_le _, rfl, Nat.zero_le _⟩

theorem check_process_available (outside : "check" ∉ allowed) {helper : Helper} {payload : Bytes}
    {c : Check} (waiting : ∀ stage ∈ allowed, Waiting c.steps.rows stage)
    (quiet : ∀ n, n < (check_process allowed cancel helper payload c).1.now → cancel n = false) :
    ((check_process allowed cancel helper payload c).2 = some "available" ↔
      payload.length ≤ 4096 ∧ ∃ reports, helper.Complete allowed reports) ∧
    ∀ reports, helper.Complete allowed reports →
      (check_process allowed cancel helper payload c).2 = some "available" →
      told reports c.steps = some (check_process allowed cancel helper payload c).1.steps := by
  by_cases refused : (payload.length > 4096 || !helper.started) = true
  · have same : check_process allowed cancel helper payload c = (c, none) := if_pos refused
    rw [same]
    refine ⟨⟨nofun, ?_⟩, nofun⟩
    rintro ⟨short, reports, complete⟩
    rw [complete.started] at refused
    simp at refused
    omega
  · have ⟨short, started⟩ : payload.length ≤ 4096 ∧ helper.started = true := by
      simpa using refused
    have unfolded : check_process allowed cancel helper payload c =
        match loop allowed cancel helper.turns .start c with
        | (c, none) => (c, none)
        | (c, some code) => if helper.cleaned then (c, some code) else (c, none) := if_neg refused
    have time : (check_process allowed cancel helper payload c).1 =
        (loop allowed cancel helper.turns .start c).1 := by
      rw [unfolded]
      rcases loop allowed cancel helper.turns .start c with ⟨c', _ | code⟩
      · rfl
      · dsimp only
        split <;> rfl
    have outcome : (check_process allowed cancel helper payload c).2 = some "available" ↔
        (loop allowed cancel helper.turns .start c).2 = some "available" ∧
          helper.cleaned = true := by
      rw [unfolded]
      rcases loop allowed cancel helper.turns .start c with ⟨c', _ | code⟩
      · simp
      · cases helper.cleaned <;> simp
    rw [time] at quiet ⊢
    rw [outcome]
    have ⟨available, steps⟩ := loop_available (Held.start allowed c.steps) quiet
    rw [available]
    have taken : ∀ reports, Accepted allowed (linesOf (reading helper.turns false none).1) reports →
        Consistent reports → ∃ s, told reports c.steps = some s := by
      intro reports accepted consistent
      apply Option.isSome_iff_exists.mp
      apply told_isSome.mpr
      exact ⟨fun r there => waiting r.stage (accepted.stages r there), consistent⟩
    constructor
    · constructor
      · rintro ⟨⟨exited, s, size, ended, drained⟩, cleaned⟩
        have ⟨reports, accepted, tell⟩ := (drain_eq outside).mp drained
        have consistent := (told_isSome.mp (Option.isSome_of_eq_some tell)).2
        exact ⟨short, reports, started, exited, size, ended, accepted, consistent, cleaned⟩
      · rintro ⟨_, reports, complete⟩
        have ⟨s, tell⟩ := taken reports complete.accepted complete.consistent
        have drained := (drain_eq outside).mpr ⟨reports, complete.accepted, tell⟩
        exact ⟨⟨complete.exited, s, complete.size, complete.ended, drained⟩, complete.cleaned⟩
    · rintro reports complete ⟨all, _⟩
      have ⟨s, tell⟩ := taken reports complete.accepted complete.consistent
      have drained := (drain_eq outside).mpr ⟨reports, complete.accepted, tell⟩
      have whole := steps (available.mpr all)
      have same : s = _ := congrArg Prod.fst (drained.symm.trans whole.2.2)
      rw [tell, same]

end loop

end Flightdeck.StoreCheck
