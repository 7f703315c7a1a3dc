import Flightdeck.StoreCheck.Process

/-!
# A Store check

The worker that `start` runs: the runtime, a sign-in where one was asked for, the two helpers, and
what is made of it at the end.
-/

namespace Flightdeck.StoreCheck

open StrictJson (Bytes Value Library)

/-! ## The sign-in -/

/-- What `try_wait` gives for the sign-in, which is -1 without an exit code. -/
inductive LoginTurn where
  | alive
  | exited (code : Int)
  | failed

structure Login where
  started : Bool
  /-- the rounds within the time limit -/
  turns : List LoginTurn

def awaitLogin (cancel : Nat → Bool) : List LoginTurn → Nat → Nat × Option Int
  | [], now => (now, none)
  | turn :: turns, now =>
    if cancel now then (now + 1, none)
    else
      match turn with
      | .failed => (now + 1, none)
      | .alive => awaitLogin cancel turns (now + 1)
      | .exited code => (now + 2, if cancel (now + 1) then none else some code)

/-- `game_install::run_cli` without transfers. -/
def run_cli (cancel : Nat → Bool) (login : Login) (now : Nat) : Nat × Option Int :=
  if cancel now || !login.started then (now + 1, none)
  else awaitLogin cancel login.turns (now + 1)

/-! ## The worker -/

/-- What a check meets. -/
structure World where
  /-- the first look at the flag after `cancel` -/
  cancelled : Option Nat
  /-- `verify_runtime` succeeds -/
  verified : Bool
  login : Login
  /-- the request for the helper, where the configuration is good -/
  config : Option Bytes
  online : Helper
  window : Helper
  /-- the runtime that is selected at the end -/
  selected : Option String

def World.cancel (w : World) (look : Nat) : Bool := w.cancelled.any (· ≤ look)

def Check.put (c : Check) (rows : List Row) : Check := { c with steps := c.steps.put rows }

def Row.set (state : State) (code : String) (row : Row) : Row :=
  { row with state := state, code := code }

def Check.step (c : Check) (stage : String) (state : State) (code : String) : Check :=
  c.put (setRow (Row.set state code) stage c.steps.rows)

def Check.pending (c : Check) (allowed : List String) (code : String) : Check :=
  c.put (finish_pending c.steps.rows allowed code)

def process_result (c : Check) (allowed : List String) (code : String) : Check × Bool :=
  (c.pending allowed (if code = "available" then "incomplete" else code), code == "available")

/-- The row of a sign-in that failed so. -/
def Check.signInFailed (c : Check) (code : Int) (message : String) : Check :=
  let c := c.step "sign_in" .failed "sign_in_required"
  c.put (setRow (fun row => { row with login := some (code, message) }) "sign_in" c.steps.rows)

section worker

variable [Library]

def helperRun (cancel : Nat → Bool) (allowed : List String) (helper : Helper) (payload : Bytes)
    (c : Check) : Check × Bool :=
  match check_process allowed cancel helper payload c with
  | (c, none) => (c, false)
  | (c, some code) => process_result c allowed code

def windowCheck (w : World) (recover : Bool) (c : Check) : Check × Bool :=
  if recover then (c, true)
  else if w.cancel c.now then ({ c with now := c.now + 1 }, true)
  else
    helperRun w.cancel ["window"] w.window []
      ({ c with now := c.now + 1 }.step "window" .running "checking")

def onlineCheck (w : World) (recover : Bool) (c : Check) : Check × Bool :=
  match w.config with
  | none => windowCheck w recover (c.pending ONLINE "invalid_config")
  | some payload =>
    match helperRun w.cancel ONLINE w.online payload c with
    | (c, false) => (c, false)
    | (c, true) => windowCheck w recover c

/-- The check, and whether it returned without an error. -/
def run (w : World) (recover : Bool) (c : Check) : Check × Bool :=
  let c := c.step "runtime" .running "checking"
  if w.verified then
    let c := c.step "runtime" .passed "verified"
    if recover then
      let c := c.step "sign_in" .running "signing_in"
      match run_cli w.cancel w.login c.now with
      | (now, none) => ({ c with now := now }, false)
      | (now, some code) =>
        match login_result code with
        | some message => ({ c with now := now }.signInFailed code message, true)
        | none => onlineCheck w recover ({ c with now := now }.step "sign_in" .passed "verified")
    else onlineCheck w recover c
  else (c.step "runtime" .failed "runtime_update", true)

end worker

/-! ## The end -/

inductive JobState where
  | cancelled | failed | passed | incomplete
  deriving DecidableEq

/-- The rows without a result get one; the flag is looked at twice for each. -/
def closeRows (cancel : Nat → Bool) : List Row → Nat → List Row × Nat
  | [], now => ([], now)
  | row :: rows, now =>
    if row.state.isOpen then
      ({ row with
          state := if cancel now then .cancelled else .skipped
          code := if cancel (now + 1) then "cancelled" else "incomplete" } ::
        (closeRows cancel rows (now + 2)).1, (closeRows cancel rows (now + 2)).2)
    else (row :: (closeRows cancel rows now).1, (closeRows cancel rows now).2)

structure Job where
  state : JobState
  steps : Steps
  /-- the look at the flag that the state rests on -/
  decided : Nat
  success : Bool

def completed (cancel : Nat → Bool) (stages : List String) (c : Check) (ok : Bool) : Job :=
  let c := if ok then c
    else { c with now := c.now + 1 }.pending stages (if cancel c.now then "cancelled" else "error")
  let closed := closeRows cancel c.steps.rows c.now
  let state :=
    if cancel closed.2 then .cancelled
    else if !ok || closed.1.any (·.state == .failed) then .failed
    else if !closed.1.isEmpty && closed.1.all (·.state == .passed) then .passed
    else .incomplete
  { state := state
    steps := c.steps.put closed.1
    decided := closed.2
    success := ok && state == .passed && !cancel (closed.2 + 1) }

def retry_allowed_after_finish (w : World) (runtime : String) (job : Job) : Bool :=
  job.success && !w.cancel (job.decided + 2) && w.selected == some runtime

def stages (recover : Bool) : List String :=
  if recover then ["runtime", "sign_in", "account", "catalog", "license", "library"] else STAGES

/-- The job of a check, and whether the cloud request that asked for it is tried again. -/
def start [Library] (w : World) (recover : Bool) (runtime : String) (request : Option String) :
    Job × Bool :=
  let result := run w recover ⟨0, ⟨(stages recover).map Row.start, []⟩⟩
  let job := completed w.cancel (stages recover) result.1 result.2
  (job, retry_allowed_after_finish w runtime job && request.isSome)

/-! ## What a check needs to pass -/

/-- The exit code that the sign-in comes to. -/
def exitCode : List LoginTurn → Option Int
  | [] => none
  | .failed :: _ => none
  | .alive :: turns => exitCode turns
  | .exited code :: _ => some code

/-- A helper that is in order, and that reports every stage as passed. -/
def Helper.Answered [Library] (allowed : List String) (helper : Helper) : Prop :=
  ∃ reports, helper.Complete allowed reports ∧
    ∀ stage ∈ allowed, ⟨stage, .passed, expected stage⟩ ∈ reports

structure World.Succeeds [Library] (w : World) (recover : Bool) : Prop where
  verified : w.verified = true
  signed_in : recover = true → w.login.started = true ∧ exitCode w.login.turns = some 0
  configured : ∃ payload, w.config = some payload ∧ payload.length ≤ 4096
  online : w.online.Answered ONLINE
  window : recover = false → w.window.Answered ["window"]

/-- Every table of a check, from the first on. -/
def Steps.tables (s : Steps) : List (List Row) := (s.rows :: s.before).reverse

/-! ## Only forward -/

/-- What a part of a check does: only to rows of these stages, and later. -/
structure Leads (stages : List String) (c c' : Check) : Prop where
  moves : Moves stages c.steps c'.steps
  later : c.now ≤ c'.now

theorem Leads.refl (stages : List String) (c : Check) : Leads stages c c :=
  ⟨.refl stages c.steps, Nat.le_refl _⟩

theorem Leads.trans {stages : List String} {a b c : Check} (first : Leads stages a b)
    (second : Leads stages b c) : Leads stages a c :=
  ⟨first.moves.trans second.moves, first.later.trans second.later⟩

theorem Leads.mono {some all : List String} (within : some ⊆ all) {c c' : Check}
    (leads : Leads some c c') : Leads all c c' :=
  ⟨leads.moves.mono within, leads.later⟩

/-- Only the flag was looked at. -/
theorem Leads.look (stages : List String) (c : Check) {now : Nat} (later : c.now ≤ now) :
    Leads stages c { c with now := now } :=
  ⟨.refl stages c.steps, later⟩

theorem Leads.pending {some all : List String} (within : some ⊆ all) (c : Check) (code : String) :
    Leads all c (c.pending some code) :=
  ⟨.finish_pending within c.steps code, Nat.le_refl _⟩

theorem Leads.set {f : Row → Row} (keeps : ∀ row, (f row).stage = row.stage) {stage : String}
    (c : Check) (next : ∀ row, rowOf c.steps.rows stage = some row → row.Next (f row)) :
    Leads [stage] c (c.put (setRow f stage c.steps.rows)) := by
  refine ⟨.put (forward_setRow next) ?_, Nat.le_refl _⟩
  intro other outside
  rw [rowOf_setRow keeps, if_neg (by simpa using outside)]

/-- A stage that waits is given a state. -/
theorem Leads.step {c : Check} {stage : String} (waiting : Waiting c.steps.rows stage)
    {state : State} (started : state ≠ .pending) (code : String) :
    Leads [stage] c (c.step stage state code) := by
  apply Leads.set (f := Row.set state code) fun _ => rfl
  intro row found
  have ⟨other, found', isOpen⟩ := waiting
  cases Option.some.inj (found.symm.trans found')
  exact .result rfl isOpen started

theorem rowOf_step (c : Check) (stage : String) (state : State) (code : String) :
    rowOf (c.step stage state code).steps.rows stage =
      (rowOf c.steps.rows stage).map (Row.set state code) := by
  show rowOf (setRow (Row.set state code) stage c.steps.rows) stage = _
  rw [rowOf_setRow (f := Row.set state code) fun _ => rfl]
  exact if_pos rfl

theorem waiting_step {c : Check} {stage : String} (waiting : Waiting c.steps.rows stage)
    {state : State} (isOpen : state.isOpen = true) (code : String) :
    Waiting (c.step stage state code).steps.rows stage := by
  have ⟨row, found, _⟩ := waiting
  refine ⟨row.set state code, ?_, isOpen⟩
  rw [rowOf_step, found]
  rfl

theorem Moves.waiting {stages : List String} {s s' : Steps} (moves : Moves stages s s')
    {stage : String} (outside : stage ∉ stages) :
    Waiting s'.rows stage ↔ Waiting s.rows stage := by
  unfold Waiting
  rw [moves.others stage outside]

/-- The stage has passed. -/
def Passed (rows : List Row) (stage : String) : Prop :=
  ∃ row, rowOf rows stage = some row ∧ row.state = .passed

theorem Moves.passed {stages : List String} {s s' : Steps} (moves : Moves stages s s')
    {stage : String} (outside : stage ∉ stages) : Passed s'.rows stage ↔ Passed s.rows stage := by
  unfold Passed
  rw [moves.others stage outside]

theorem passed_pending (c : Check) (stages : List String) (code stage : String) :
    Passed (c.pending stages code).steps.rows stage ↔ Passed c.steps.rows stage := by
  show Passed (finish_pending c.steps.rows stages code) stage ↔ _
  unfold Passed
  rw [rowOf_finish_pending]
  cases rowOf c.steps.rows stage with
  | none => simp
  | some row => simp [finished_passed]

theorem not_passed_of_waiting {rows : List Row} {stage : String} (waiting : Waiting rows stage) :
    ¬ Passed rows stage := by
  rintro ⟨row, found, passed⟩
  have ⟨other, found', isOpen⟩ := waiting
  cases Option.some.inj (found.symm.trans found')
  rw [passed] at isOpen
  contradiction

/-- A stage is as it was set. -/
theorem passed_step {c : Check} {stage : String} (waiting : Waiting c.steps.rows stage)
    (state : State) (code : String) :
    Passed (c.step stage state code).steps.rows stage ↔ state = .passed := by
  have ⟨row, found, _⟩ := waiting
  unfold Passed
  rw [rowOf_step, found]
  simp [Row.set]

section worker

variable [Library]

/-! ## The helpers -/

theorem Leads.helperRun (cancel : Nat → Bool) (allowed : List String) (helper : Helper)
    (payload : Bytes) (c : Check) :
    Leads allowed c (StoreCheck.helperRun cancel allowed helper payload c).1 := by
  have leads : Leads allowed c (check_process allowed cancel helper payload c).1 :=
    ⟨.check_process helper payload c, check_process_now helper payload c⟩
  unfold StoreCheck.helperRun
  rcases result : check_process allowed cancel helper payload c with ⟨c', _ | code⟩
  all_goals rw [result] at leads
  · exact leads
  · exact leads.trans (.pending (List.Subset.refl _) c' _)

/-- A helper's stages all pass if and only if it is in order and reports them so. -/
theorem helperRun_passed {cancel : Nat → Bool} {allowed : List String}
    (outside : "check" ∉ allowed) {helper : Helper} {payload : Bytes} {c : Check}
    (waiting : ∀ stage ∈ allowed, Waiting c.steps.rows stage)
    (quiet : ∀ n, n < (helperRun cancel allowed helper payload c).1.now → cancel n = false) :
    ((helperRun cancel allowed helper payload c).2 = true ∧
      ∀ stage ∈ allowed, Passed (helperRun cancel allowed helper payload c).1.steps.rows stage) ↔
    payload.length ≤ 4096 ∧ helper.Answered allowed := by
  have same : (helperRun cancel allowed helper payload c).1.now =
      (check_process allowed cancel helper payload c).1.now := by
    unfold helperRun
    rcases check_process allowed cancel helper payload c with ⟨c', _ | code⟩ <;> rfl
  rw [same] at quiet
  have ⟨available, told'⟩ := check_process_available outside waiting quiet
  unfold helperRun
  rcases result : check_process allowed cancel helper payload c with ⟨c', code⟩
  rw [result] at available told'
  by_cases inOrder : code = some "available"
  · subst inOrder
    have ⟨short, reports, complete⟩ := available.mp rfl
    have tell := told' reports complete rfl
    have passed : ∀ stage ∈ allowed,
        (Passed (c'.pending allowed "incomplete").steps.rows stage ↔
          ∃ r ∈ reports, r.stage = stage ∧ r.state = .passed) := by
      intro stage there
      rw [passed_pending]
      exact told_passed tell (waiting stage there)
    show (("available" == "available") = true ∧ ∀ stage ∈ allowed,
      Passed (c'.pending allowed "incomplete").steps.rows stage) ↔ _
    constructor
    · rintro ⟨_, all⟩
      refine ⟨short, reports, complete, ?_⟩
      intro stage there
      have ⟨r, told, about, state⟩ := (passed stage there).mp (all stage there)
      have code := complete.accepted.code r told state
      rw [← about, ← state, ← code]
      exact told
    · rintro ⟨_, reports', complete', all⟩
      refine ⟨rfl, ?_⟩
      intro stage there
      have tell' := told' reports' complete' rfl
      rw [passed_pending]
      exact (told_passed tell' (waiting stage there)).mpr
        ⟨_, all stage there, rfl, rfl⟩
  · have never : ¬ ∃ reports, payload.length ≤ 4096 ∧ helper.Complete allowed reports := by
      rintro ⟨reports, short, complete⟩
      exact inOrder (available.mpr ⟨short, reports, complete⟩)
    constructor
    · cases code with
      | none => simp
      | some code =>
        rintro ⟨fine, _⟩
        have same : code = "available" := by simpa [process_result] using fine
        exact absurd (congrArg some same) inOrder
    · rintro ⟨short, reports, complete, _⟩
      exact absurd ⟨reports, short, complete⟩ never

/-- The window is not checked after a sign-in. -/
def lastStage (recover : Bool) : List String := if recover then [] else ["window"]

theorem Leads.windowCheck (w : World) (recover : Bool) (c : Check)
    (waiting : recover = false → Waiting c.steps.rows "window") :
    Leads (lastStage recover) c (StoreCheck.windowCheck w recover c).1 := by
  unfold StoreCheck.windowCheck
  cases recover with
  | true => exact .refl _ c
  | false =>
    rw [if_neg Bool.false_ne_true]
    have look : Leads ["window"] c { c with now := c.now + 1 } := .look _ c (Nat.le_succ _)
    split
    · exact look
    · have running : Leads ["window"] { c with now := c.now + 1 }
          ({ c with now := c.now + 1 }.step "window" .running "checking") :=
        Leads.step (c := { c with now := c.now + 1 }) (waiting rfl) (by decide) "checking"
      exact (look.trans running).trans (.helperRun ..)

theorem windowCheck_passed {w : World} {c : Check} (waiting : Waiting c.steps.rows "window")
    (quiet : ∀ n, n < (windowCheck w false c).1.now → w.cancel n = false) :
    ((windowCheck w false c).2 = true ∧ Passed (windowCheck w false c).1.steps.rows "window") ↔
      w.window.Answered ["window"] := by
  have unfolded : windowCheck w false c = if w.cancel c.now then ({ c with now := c.now + 1 }, true)
      else helperRun w.cancel ["window"] w.window []
        ({ c with now := c.now + 1 }.step "window" .running "checking") := rfl
  have looked : w.cancel c.now = false := by
    apply quiet
    rw [unfolded]
    split
    · exact Nat.lt_succ_self _
    · exact (Leads.helperRun w.cancel ["window"] w.window []
        ({ c with now := c.now + 1 }.step "window" .running "checking")).later
  have run : windowCheck w false c = helperRun w.cancel ["window"] w.window []
      ({ c with now := c.now + 1 }.step "window" .running "checking") := by
    rw [unfolded, looked]
    rfl
  rw [run] at quiet ⊢
  have waiting' : ∀ stage ∈ ["window"],
      Waiting ({ c with now := c.now + 1 }.step "window" .running "checking").steps.rows stage := by
    intro stage there
    rw [List.mem_singleton.mp there]
    exact waiting_step waiting rfl _
  have passed := helperRun_passed (by decide) waiting' quiet
  simpa using passed

theorem Leads.onlineCheck (w : World) (recover : Bool) (c : Check)
    (waiting : recover = false → Waiting c.steps.rows "window") :
    Leads (ONLINE ++ lastStage recover) c (StoreCheck.onlineCheck w recover c).1 := by
  have online : ONLINE ⊆ ONLINE ++ lastStage recover := List.subset_append_left ..
  have window : lastStage recover ⊆ ONLINE ++ lastStage recover := List.subset_append_right ..
  unfold StoreCheck.onlineCheck
  cases w.config with
  | none =>
    have leads : Leads ONLINE c (c.pending ONLINE "invalid_config") :=
      .pending (List.Subset.refl _) c _
    refine (leads.mono online).trans ((Leads.windowCheck w recover _ ?_).mono window)
    intro check
    exact (leads.moves.waiting (by decide)).mpr (waiting check)
  | some payload =>
    dsimp only
    have leads := Leads.helperRun w.cancel ONLINE w.online payload c
    rcases result : StoreCheck.helperRun w.cancel ONLINE w.online payload c with ⟨c', _ | _⟩
    all_goals rw [result] at leads
    · exact leads.mono online
    · refine (leads.mono online).trans ((Leads.windowCheck w recover _ ?_).mono window)
      intro check
      exact (leads.moves.waiting (by decide)).mpr (waiting check)

theorem onlineCheck_passed {w : World} {recover : Bool} {c : Check}
    (waiting : ∀ stage ∈ ONLINE, Waiting c.steps.rows stage)
    (waiting' : recover = false → Waiting c.steps.rows "window")
    (quiet : ∀ n, n < (onlineCheck w recover c).1.now → w.cancel n = false) :
    ((onlineCheck w recover c).2 = true ∧
      (∀ stage ∈ ONLINE, Passed (onlineCheck w recover c).1.steps.rows stage) ∧
      (recover = false → Passed (onlineCheck w recover c).1.steps.rows "window")) ↔
    (∃ payload, w.config = some payload ∧ payload.length ≤ 4096) ∧ w.online.Answered ONLINE ∧
      (recover = false → w.window.Answered ["window"]) := by
  have apart : ∀ stage ∈ ONLINE, stage ∉ lastStage recover := by cases recover <;> decide
  unfold onlineCheck at quiet ⊢
  cases configured : w.config with
  | none =>
    -- the rows are finished, and the window check leaves them alone
    have leads : Leads ONLINE c (c.pending ONLINE "invalid_config") :=
      .pending (List.Subset.refl _) c _
    have leads' := Leads.windowCheck w recover (c.pending ONLINE "invalid_config") fun check =>
      (leads.moves.waiting (by decide)).mpr (waiting' check)
    have missing : ¬ Passed (windowCheck w recover
        (c.pending ONLINE "invalid_config")).1.steps.rows "account" := by
      rw [leads'.moves.passed (apart "account" (by decide)), passed_pending]
      exact not_passed_of_waiting (waiting "account" (by decide))
    constructor
    · rintro ⟨_, all, _⟩
      exact absurd (all "account" (by decide)) missing
    · rintro ⟨⟨payload, found, _⟩, _⟩
      contradiction
  | some payload =>
    rw [configured] at quiet
    dsimp only at quiet ⊢
    have leads := Leads.helperRun w.cancel ONLINE w.online payload c
    have passed : (∀ n, n < (helperRun w.cancel ONLINE w.online payload c).1.now →
        w.cancel n = false) → _ := helperRun_passed (by decide) waiting
    rcases result : helperRun w.cancel ONLINE w.online payload c with ⟨c', _ | _⟩
    all_goals rw [result] at leads passed quiet
    · have passed := passed quiet
      have never : ¬ (payload.length ≤ 4096 ∧ w.online.Answered ONLINE) := by
        rw [← passed]
        simp
      constructor
      · nofun
      · rintro ⟨⟨payload', found, short⟩, answered, _⟩
        cases Option.some.inj found
        exact absurd ⟨short, answered⟩ never
    · have window : Waiting c'.steps.rows "window" ↔ Waiting c.steps.rows "window" :=
        leads.moves.waiting (by decide)
      have leads' := Leads.windowCheck w recover c' fun check => window.mpr (waiting' check)
      have passed := passed fun n before => quiet n (Nat.lt_of_lt_of_le before leads'.later)
      have online : (∀ stage ∈ ONLINE, Passed (windowCheck w recover c').1.steps.rows stage) ↔
          payload.length ≤ 4096 ∧ w.online.Answered ONLINE := by
        rw [← passed]
        simp only [true_and]
        exact forall₂_congr fun stage there => leads'.moves.passed (apart stage there)
      dsimp only
      rw [online]
      cases recover with
      | true =>
        simp [windowCheck]
      | false =>
        have last := windowCheck_passed (window.mpr (waiting' rfl)) quiet
        simp only [forall_const, Option.some.injEq, exists_eq_left']
        rw [← last]
        constructor
        · rintro ⟨fine, ⟨short, answered⟩, passed⟩
          exact ⟨short, answered, fine, passed⟩
        · rintro ⟨short, answered, fine, passed⟩
          exact ⟨fine, ⟨short, answered⟩, passed⟩

/-! ## The sign-in and the runtime -/

omit [Library] in
theorem awaitLogin_spec {cancel : Nat → Bool} (turns : List LoginTurn) (now : Nat) :
    now ≤ (awaitLogin cancel turns now).1 ∧
      ((∀ n, n < (awaitLogin cancel turns now).1 → cancel n = false) →
        (awaitLogin cancel turns now).2 = exitCode turns) := by
  induction turns generalizing now with
  | nil => exact ⟨Nat.le_refl _, fun _ => rfl⟩
  | cons turn turns ih =>
    unfold awaitLogin
    cases looked : cancel now with
    | true =>
      refine ⟨Nat.le_succ _, fun quiet => ?_⟩
      have same := quiet now (Nat.lt_succ_self _)
      rw [looked] at same
      contradiction
    | false =>
      rw [if_neg Bool.false_ne_true]
      cases turn with
      | failed => exact ⟨Nat.le_succ _, fun _ => rfl⟩
      | alive =>
        have ⟨later, code⟩ := ih (now + 1)
        exact ⟨Nat.le_of_succ_le later, code⟩
      | exited code =>
        refine ⟨Nat.le_add_right now 2, fun quiet => ?_⟩
        dsimp only at quiet ⊢
        rw [quiet (now + 1) (by omega)]
        rfl

omit [Library] in
theorem run_cli_later (cancel : Nat → Bool) (login : Login) (now : Nat) :
    now < (run_cli cancel login now).1 := by
  unfold run_cli
  split
  · exact Nat.lt_succ_self _
  · exact (awaitLogin_spec login.turns (now + 1)).1

omit [Library] in
theorem run_cli_code {cancel : Nat → Bool} {login : Login} {now : Nat}
    (quiet : ∀ n, n < (run_cli cancel login now).1 → cancel n = false) :
    (run_cli cancel login now).2 = if login.started then exitCode login.turns else none := by
  have looked := quiet now (run_cli_later ..)
  unfold run_cli at quiet ⊢
  rw [looked] at quiet ⊢
  cases started : login.started with
  | false => rfl
  | true =>
    rw [started] at quiet
    exact (awaitLogin_spec login.turns (now + 1)).2 quiet

omit [Library] in
theorem stages_all (recover : Bool) (P : String → Prop) :
    (∀ stage ∈ stages recover, P stage) ↔ P "runtime" ∧ (recover = true → P "sign_in") ∧
      (∀ stage ∈ ONLINE, P stage) ∧ (recover = false → P "window") := by
  cases recover <;> simp [stages, STAGES, ONLINE]
  tauto

omit [Library] in
theorem login_result_none {code : Int} : login_result code = none ↔ code = 0 := by
  unfold login_result
  split <;> simp_all

omit [Library] in
theorem runtime_started {c : Check} (waiting : Waiting c.steps.rows "runtime") :
    Leads ["runtime"] c (c.step "runtime" .running "checking") :=
  .step waiting (by decide) "checking"

omit [Library] in
/-- The row of a failed sign-in gets the exit code as well. -/
theorem Leads.signInFailed {c : Check} (waiting : Waiting c.steps.rows "sign_in") (code : Int)
    (message : String) : Leads ["sign_in"] c (c.signInFailed code message) := by
  have failed : Leads ["sign_in"] c (c.step "sign_in" .failed "sign_in_required") :=
    .step waiting (by decide) _
  refine failed.trans ?_
  apply Leads.set (f := fun row => { row with login := some (code, message) }) fun _ => rfl
  intro row _
  exact ⟨rfl, fun running pending => by simp [running] at pending, fun _ => ⟨rfl, rfl⟩⟩

omit [Library] in
theorem not_passed_signInFailed {c : Check} (waiting : Waiting c.steps.rows "sign_in") (code : Int)
    (message : String) : ¬ Passed (c.signInFailed code message).steps.rows "sign_in" := by
  have ⟨row, found, _⟩ := waiting
  have failed : rowOf (c.signInFailed code message).steps.rows "sign_in" =
      some { row.set .failed "sign_in_required" with login := some (code, message) } := by
    show rowOf (setRow (fun row => { row with login := some (code, message) }) "sign_in"
      (c.step "sign_in" .failed "sign_in_required").steps.rows) "sign_in" = _
    rw [rowOf_setRow (f := fun row => { row with login := some (code, message) }) fun _ => rfl,
      if_pos rfl, rowOf_step, found]
    rfl
  rintro ⟨other, found', passed⟩
  rw [failed] at found'
  cases Option.some.inj found'
  contradiction

theorem Leads.run (w : World) (recover : Bool) (c : Check)
    (waiting : ∀ stage ∈ stages recover, Waiting c.steps.rows stage) :
    Leads (stages recover) c (StoreCheck.run w recover c).1 := by
  have all := (stages_all recover (Waiting c.steps.rows)).mp waiting
  have runtime : ["runtime"] ⊆ stages recover := by cases recover <;> decide
  have rest : ONLINE ++ lastStage recover ⊆ stages recover := by cases recover <;> decide
  have started := runtime_started all.1
  have still : Waiting (c.step "runtime" .running "checking").steps.rows "runtime" :=
    waiting_step all.1 rfl "checking"
  unfold StoreCheck.run
  dsimp only
  split
  · have verified : Leads ["runtime"] c
        ((c.step "runtime" .running "checking").step "runtime" .passed "verified") :=
      started.trans (.step still (by decide) "verified")
    generalize (c.step "runtime" .running "checking").step "runtime" .passed "verified" = c₂
      at verified
    cases recover with
    | false =>
      rw [if_neg Bool.false_ne_true]
      refine (verified.mono runtime).trans ((Leads.onlineCheck w false c₂ ?_).mono rest)
      intro _
      exact (verified.moves.waiting (by decide)).mpr (all.2.2.2 rfl)
    | true =>
      rw [if_pos rfl]
      have sign_in : ["sign_in"] ⊆ stages true := by decide
      have waits : Waiting c₂.steps.rows "sign_in" :=
        (verified.moves.waiting (by decide)).mpr (all.2.1 rfl)
      have asked : Leads ["sign_in"] c₂ (c₂.step "sign_in" .running "signing_in") :=
        .step waits (by decide) _
      have waits' : Waiting (c₂.step "sign_in" .running "signing_in").steps.rows "sign_in" :=
        waiting_step waits rfl "signing_in"
      generalize c₂.step "sign_in" .running "signing_in" = c₃ at asked waits'
      have later := run_cli_later w.cancel w.login c₃.now
      rcases result : run_cli w.cancel w.login c₃.now with ⟨now, _ | code⟩
      all_goals
        rw [result] at later
        have looked : Leads (stages true) c { c₃ with now := now } :=
          ((verified.mono runtime).trans (asked.mono sign_in)).trans
            (.look _ c₃ (Nat.le_of_lt later))
      · exact looked
      · dsimp only
        cases login_result code with
        | some message =>
          exact looked.trans
            ((Leads.signInFailed (c := { c₃ with now := now }) waits' code message).mono sign_in)
        | none =>
          have signed : Leads ["sign_in"] { c₃ with now := now }
              ({ c₃ with now := now }.step "sign_in" .passed "verified") :=
            Leads.step (c := { c₃ with now := now }) waits' (by decide) _
          exact (looked.trans (signed.mono sign_in)).trans
            ((Leads.onlineCheck w true _ nofun).mono rest)
  · exact (started.trans (.step still (by decide) "runtime_update")).mono runtime

/-- A check without cancellation passes all stages if and only if everything succeeds. -/
theorem run_passed {w : World} {recover : Bool} {c : Check}
    (waiting : ∀ stage ∈ stages recover, Waiting c.steps.rows stage)
    (quiet : ∀ n, n < (run w recover c).1.now → w.cancel n = false) :
    ((run w recover c).2 = true ∧
      ∀ stage ∈ stages recover, Passed (run w recover c).1.steps.rows stage) ↔
    w.Succeeds recover := by
  have all := (stages_all recover (Waiting c.steps.rows)).mp waiting
  have started := runtime_started all.1
  have still : Waiting (c.step "runtime" .running "checking").steps.rows "runtime" :=
    waiting_step all.1 rfl "checking"
  rw [stages_all]
  unfold run at quiet ⊢
  dsimp only at quiet ⊢
  cases verified : w.verified with
  | false =>
    -- a runtime that is not verified ends the check before any other stage
    have runtime := passed_step still .failed "runtime_update"
    rw [if_neg Bool.false_ne_true]
    constructor
    · rintro ⟨_, passed, _⟩
      have never := runtime.mp passed
      contradiction
    · intro succeeds
      have same := succeeds.verified
      rw [verified] at same
      contradiction
  | true =>
    rw [verified, if_pos rfl] at quiet
    rw [if_pos rfl]
    have runtime : Passed
        ((c.step "runtime" .running "checking").step "runtime" .passed "verified").steps.rows
        "runtime" := (passed_step still .passed "verified").mpr rfl
    have leads : Leads ["runtime"] c
        ((c.step "runtime" .running "checking").step "runtime" .passed "verified") :=
      started.trans (.step still (by decide) "verified")
    -- the rest of the run sees only what this state has in its rows
    generalize (c.step "runtime" .running "checking").step "runtime" .passed "verified" = c₂
      at runtime leads quiet ⊢
    have online : ∀ stage ∈ ONLINE, Waiting c₂.steps.rows stage := by
      intro stage there
      have outside : ∀ stage ∈ ONLINE, stage ∉ ["runtime"] := by decide
      exact (leads.moves.waiting (outside stage there)).mpr (all.2.2.1 stage there)
    -- a check looks at the window, a recovery signs in instead
    cases recover with
    | false =>
      rw [if_neg Bool.false_ne_true] at quiet ⊢
      have window : Waiting c₂.steps.rows "window" :=
        (leads.moves.waiting (by decide)).mpr (all.2.2.2 rfl)
      have passed := onlineCheck_passed online (fun _ => window) quiet
      have before := (Leads.onlineCheck w false c₂ fun _ => window).moves.passed
        (by decide : "runtime" ∉ _)
      constructor
      · rintro ⟨fine, _, _, rest⟩
        have ⟨configured, answered, last⟩ := passed.mp ⟨fine, rest⟩
        exact ⟨verified, nofun, configured, answered, last⟩
      · intro succeeds
        have ⟨fine, rest⟩ := passed.mpr ⟨succeeds.configured, succeeds.online, succeeds.window⟩
        exact ⟨fine, before.mpr runtime, nofun, rest⟩
    | true =>
      rw [if_pos rfl] at quiet ⊢
      have waits : Waiting c₂.steps.rows "sign_in" :=
        (leads.moves.waiting (by decide)).mpr (all.2.1 rfl)
      have asked : Leads ["sign_in"] c₂ (c₂.step "sign_in" .running "signing_in") :=
        .step waits (by decide) _
      have waits' : Waiting (c₂.step "sign_in" .running "signing_in").steps.rows "sign_in" :=
        waiting_step waits rfl "signing_in"
      generalize c₂.step "sign_in" .running "signing_in" = c₃ at asked waits' quiet ⊢
      have code : (∀ n, n < (run_cli w.cancel w.login c₃.now).1 → w.cancel n = false) → _ :=
        run_cli_code
      -- a sign-in has no code when it was cancelled, did not start, failed or took too long
      rcases result : run_cli w.cancel w.login c₃.now with ⟨now, _ | exit⟩
      all_goals
        rw [result] at quiet code
        dsimp only at quiet code ⊢
      · have code := code quiet
        constructor
        · nofun
        · intro succeeds
          have ⟨ran, exit⟩ := succeeds.signed_in rfl
          rw [if_pos ran, exit] at code
          contradiction
      · cases outcome : login_result exit with
        | some message =>
          rw [outcome] at quiet
          have code := code quiet
          constructor
          · rintro ⟨_, _, passed, _⟩
            exact absurd (passed rfl)
              (not_passed_signInFailed (c := { c₃ with now := now }) waits' exit message)
          · intro succeeds
            have ⟨ran, zero⟩ := succeeds.signed_in rfl
            rw [if_pos ran, zero] at code
            have fine := login_result_none.mpr (Option.some.inj code)
            rw [outcome] at fine
            contradiction
        | none =>
          rw [outcome] at quiet
          dsimp only at quiet ⊢
          have signed : Leads ["sign_in"] { c₃ with now := now }
              ({ c₃ with now := now }.step "sign_in" .passed "verified") :=
            Leads.step (c := { c₃ with now := now }) waits' (by decide) _
          have sign_in := (passed_step (c := { c₃ with now := now }) waits' .passed "verified").mpr
            rfl
          have online' : ∀ stage ∈ ONLINE, Waiting
              ({ c₃ with now := now }.step "sign_in" .passed "verified").steps.rows stage := by
            intro stage there
            have outside : ∀ stage ∈ ONLINE, stage ∉ ["sign_in"] := by decide
            exact (signed.moves.waiting (outside stage there)).mpr
              ((asked.moves.waiting (outside stage there)).mpr (online stage there))
          have runtime' : Passed
              ({ c₃ with now := now }.step "sign_in" .passed "verified").steps.rows "runtime" :=
            (signed.moves.passed (by decide)).mpr ((asked.moves.passed (by decide)).mpr runtime)
          generalize { c₃ with now := now }.step "sign_in" .passed "verified" = c₄
            at signed sign_in online' runtime' quiet ⊢
          have never : true = false → Waiting c₄.steps.rows "window" := nofun
          have rest := Leads.onlineCheck w true c₄ never
          -- the run is not cancelled later either, so the command was not cancelled
          have code := code fun n before =>
            quiet n (Nat.lt_of_lt_of_le before (signed.later.trans rest.later))
          rw [login_result_none.mp outcome] at code
          have passed := onlineCheck_passed online' never quiet
          constructor
          · rintro ⟨fine, _, _, others⟩
            have ⟨configured, answered, last⟩ := passed.mp ⟨fine, others⟩
            refine ⟨verified, fun _ => ?_, configured, answered, last⟩
            cases ran : w.login.started with
            | false => simp [ran] at code
            | true =>
              rw [ran, if_pos rfl] at code
              exact ⟨rfl, code.symm⟩
          · intro succeeds
            have ⟨fine, others⟩ := passed.mpr ⟨succeeds.configured, succeeds.online, nofun⟩
            exact ⟨fine, (rest.moves.passed (by decide)).mpr runtime',
              fun _ => (rest.moves.passed (by decide)).mpr sign_in, others⟩

end worker

/-! ## The end of a check -/

theorem closeRows_forward (cancel : Nat → Bool) (rows : List Row) (now : Nat) :
    Forward rows (closeRows cancel rows now).1 := by
  induction rows generalizing now with
  | nil => exact .nil
  | cons row rows ih =>
    unfold closeRows
    by_cases isOpen : row.state.isOpen = true
    · rw [if_pos isOpen]
      refine .cons (.result rfl isOpen ?_) (ih (now + 2))
      by_cases looked : cancel now = true <;> simp [looked]
    · rw [if_neg isOpen]
      exact .cons (.refl row) (ih now)

theorem closeRows_closed (cancel : Nat → Bool) (rows : List Row) (now : Nat) :
    ∀ row ∈ (closeRows cancel rows now).1, row.state.isOpen = false := by
  induction rows generalizing now with
  | nil => simp [closeRows]
  | cons row rows ih =>
    unfold closeRows
    by_cases isOpen : row.state.isOpen = true
    · rw [if_pos isOpen, List.forall_mem_cons]
      refine ⟨?_, ih (now + 2)⟩
      by_cases looked : cancel now = true <;> simp [looked, State.isOpen]
    · rw [if_neg isOpen, List.forall_mem_cons]
      exact ⟨by simpa using isOpen, ih now⟩

/-- No row passes by being closed. -/
theorem closeRows_passed (cancel : Nat → Bool) (rows : List Row) (now : Nat) :
    (∀ row ∈ (closeRows cancel rows now).1, row.state = .passed) ↔
      ∀ row ∈ rows, row.state = .passed := by
  induction rows generalizing now with
  | nil => simp [closeRows]
  | cons row rows ih =>
    unfold closeRows
    by_cases isOpen : row.state.isOpen = true
    · have other : row.state ≠ .passed := by
        intro passed
        rw [passed] at isOpen
        contradiction
      rw [if_pos isOpen, List.forall_mem_cons, List.forall_mem_cons]
      by_cases looked : cancel now = true <;> simp [looked, other]
    · rw [if_neg isOpen, List.forall_mem_cons, List.forall_mem_cons, ih now]

theorem closeRows_later (cancel : Nat → Bool) (rows : List Row) (now : Nat) :
    now ≤ (closeRows cancel rows now).2 := by
  induction rows generalizing now with
  | nil => exact Nat.le_refl _
  | cons row rows ih =>
    have one := ih (now + 2)
    have two := ih now
    unfold closeRows
    split
    · exact Nat.le_of_add_right_le one
    · exact two

/-- The check as it is before its rows are closed. -/
def afterError (cancel : Nat → Bool) (stages : List String) (c : Check) (ok : Bool) : Check :=
  if ok then c
  else { c with now := c.now + 1 }.pending stages (if cancel c.now then "cancelled" else "error")

theorem Leads.afterError (cancel : Nat → Bool) (stages : List String) (c : Check) (ok : Bool) :
    Leads stages c (StoreCheck.afterError cancel stages c ok) := by
  unfold StoreCheck.afterError
  split
  · exact .refl stages c
  · exact (Leads.look stages c (Nat.le_succ _)).trans
      (.pending (List.Subset.refl _) { c with now := c.now + 1 } _)

theorem completed_later (cancel : Nat → Bool) (stages : List String) (c : Check) (ok : Bool) :
    c.now ≤ (completed cancel stages c ok).decided :=
  (Leads.afterError cancel stages c ok).later.trans (closeRows_later ..)

theorem completed_passed (cancel : Nat → Bool) (stages : List String) (c : Check) (ok : Bool) :
    (completed cancel stages c ok).state = .passed ↔
      cancel (completed cancel stages c ok).decided = false ∧ ok = true ∧ c.steps.rows ≠ [] ∧
        ∀ row ∈ c.steps.rows, row.state = .passed := by
  have unfolded : (completed cancel stages c ok).state =
      if cancel (completed cancel stages c ok).decided then .cancelled
      else if !ok || (completed cancel stages c ok).steps.rows.any (·.state == .failed) then .failed
      else if !(completed cancel stages c ok).steps.rows.isEmpty &&
        (completed cancel stages c ok).steps.rows.all (·.state == .passed) then .passed
      else .incomplete := rfl
  rw [unfolded]
  cases cancel (completed cancel stages c ok).decided with
  | true => simp
  | false =>
    cases ok with
    | false => simp
    | true =>
      have rows : (completed cancel stages c true).steps.rows =
          (closeRows cancel c.steps.rows c.now).1 := rfl
      have same : (closeRows cancel c.steps.rows c.now).1 = [] ↔ c.steps.rows = [] := by
        have lengths := (closeRows_forward cancel c.steps.rows c.now).length_eq
        rw [← List.length_eq_zero_iff, ← List.length_eq_zero_iff, lengths]
      have passed := closeRows_passed cancel c.steps.rows c.now
      rw [rows]
      generalize (closeRows cancel c.steps.rows c.now).1 = closed at same passed
      rw [← passed, Ne, ← same]
      by_cases all : ∀ row ∈ closed, row.state = .passed
      · have fine : closed.any (·.state == .failed) = false := by
          rw [List.any_eq_false]
          intro row there
          rw [all row there]
          decide
        have every : closed.all (·.state == .passed) = true := by simpa using all
        rw [fine, every]
        cases closed with
        | nil => simp
        | cons row rows => simpa using all
      · have every : closed.all (·.state == .passed) = false := by simpa using all
        rw [every]
        simp only [Bool.and_false, all, and_false, iff_false]
        split_ifs <;> simp

theorem rowOf_mem {rows : List Row} (distinct : (rows.map Row.stage).Nodup) {row : Row}
    (there : row ∈ rows) : rowOf rows row.stage = some row := by
  induction rows with
  | nil => contradiction
  | cons first rows ih =>
    rw [List.map_cons, List.nodup_cons] at distinct
    rw [rowOf_cons]
    rcases List.mem_cons.mp there with rfl | there
    · exact if_pos rfl
    · rw [if_neg]
      · exact ih distinct.2 there
      · intro same
        exact distinct.1 (same ▸ List.mem_map_of_mem there)

/-- Where each stage has one row, all rows have passed when all stages have. -/
theorem all_passed {rows : List Row} (distinct : (rows.map Row.stage).Nodup) :
    (∀ row ∈ rows, row.state = .passed) ↔ ∀ stage ∈ rows.map Row.stage, Passed rows stage := by
  rw [List.forall_mem_map]
  apply forall₂_congr
  intro row there
  have found := rowOf_mem distinct there
  constructor
  · intro passed
    exact ⟨row, found, passed⟩
  · rintro ⟨other, found', passed⟩
    rw [Option.some.inj (found.symm.trans found')]
    exact passed

theorem stages_distinct (recover : Bool) : (stages recover).Nodup := by
  cases recover <;> decide

theorem start_stages (names : List String) : (names.map Row.start).map Row.stage = names := by
  rw [List.map_map]
  exact List.map_id names

theorem start_waiting {names : List String} : ∀ stage ∈ names,
    Waiting (names.map Row.start) stage := by
  intro stage there
  have named : stage ∈ (names.map Row.start).map Row.stage := by
    rw [start_stages]
    exact there
  have ⟨row, found⟩ := Option.isSome_iff_exists.mp (rowOf_isSome.mpr named)
  have ⟨name, _, same⟩ := List.mem_map.mp (List.mem_of_find?_eq_some found)
  refine ⟨row, found, ?_⟩
  rw [← same]
  rfl

theorem World.cancel_mono {w : World} {m n : Nat} (before : m ≤ n) (quiet : w.cancel n = false) :
    w.cancel m = false := by
  unfold World.cancel at *
  cases known : w.cancelled with
  | none => rfl
  | some look =>
    rw [known] at quiet
    simp only [Option.any_some, decide_eq_false_iff_not] at quiet ⊢
    omega

/-- The outcome of a Store check: every row goes only forward from table to table, the check passes
if and only if everything succeeds and it is not cancelled by then, no row is left without a result,
and the cloud request is tried again only after a check that passed, for the runtime that is still
selected. -/
theorem check_outcome [Library] (w : World) (recover : Bool) (runtime : String)
    (request : Option String) :
    let job := (start w recover runtime request).1
    job.steps.tables.head? = some ((stages recover).map Row.start) ∧
    job.steps.tables.Pairwise Forward ∧
    (job.state = .passed ↔ w.Succeeds recover ∧ w.cancel job.decided = false) ∧
    (∀ row ∈ job.steps.rows, row.state.isOpen = false) ∧
    ((start w recover runtime request).2 = true ↔ job.state = .passed ∧
      w.cancel (job.decided + 2) = false ∧ w.selected = some runtime ∧ request.isSome = true) := by
  intro job
  let c₀ : Check := ⟨0, ⟨(stages recover).map Row.start, []⟩⟩
  have waiting : ∀ stage ∈ stages recover, Waiting c₀.steps.rows stage := start_waiting
  have leads := Leads.run w recover c₀ waiting
  have passed := run_passed (w := w) waiting
  have same : job = completed w.cancel (stages recover) (run w recover c₀).1
      (run w recover c₀).2 := rfl
  have retried : (start w recover runtime request).2 =
      (retry_allowed_after_finish w runtime job && request.isSome) := rfl
  rw [retried]
  generalize run w recover c₀ = outcome at leads passed same
  have closing := leads.trans (.afterError w.cancel (stages recover) outcome.1 outcome.2)
  have steps : job.steps = (afterError w.cancel (stages recover) outcome.1 outcome.2).steps.put
      (closeRows w.cancel (afterError w.cancel (stages recover) outcome.1 outcome.2).steps.rows
        (afterError w.cancel (stages recover) outcome.1 outcome.2).now).1 := by
    rw [same]
    rfl
  have table : outcome.1.steps.rows.map Row.stage = stages recover :=
    leads.moves.table.trans (start_stages _)
  have state : job.state = .passed ↔ w.Succeeds recover ∧ w.cancel job.decided = false := by
    have some : outcome.1.steps.rows ≠ [] := by
      intro empty
      rw [empty] at table
      cases recover <;> contradiction
    have distinct : (outcome.1.steps.rows.map Row.stage).Nodup := by
      rw [table]
      exact stages_distinct recover
    have later := completed_later w.cancel (stages recover) outcome.1 outcome.2
    rw [same, completed_passed, all_passed distinct, table]
    constructor
    · rintro ⟨quiet, fine, _, all⟩
      have quiet' : ∀ n, n < outcome.1.now → w.cancel n = false := fun n before =>
        World.cancel_mono (Nat.le_trans (Nat.le_of_lt before) later) quiet
      exact ⟨(passed quiet').mp ⟨fine, all⟩, quiet⟩
    · rintro ⟨succeeds, quiet⟩
      have quiet' : ∀ n, n < outcome.1.now → w.cancel n = false := fun n before =>
        World.cancel_mono (Nat.le_trans (Nat.le_of_lt before) later) quiet
      have ⟨fine, all⟩ := (passed quiet').mpr succeeds
      exact ⟨quiet, fine, some, all⟩
  refine ⟨?_, ?_, state, ?_, ?_⟩
  · have history : [(stages recover).map Row.start] <:+ job.steps.rows :: job.steps.before := by
      rw [steps]
      exact closing.moves.history.trans (List.suffix_cons ..)
    have ⟨earlier, all⟩ := history
    unfold Steps.tables
    rw [← all]
    simp
  · have ordered : c₀.steps.Ordered := List.pairwise_singleton ..
    apply List.pairwise_reverse.mpr
    rw [steps]
    exact (closing.moves.ordered ordered).put (closeRows_forward ..)
  · rw [steps]
    exact closeRows_closed _ _ _
  · have success : job.success =
        (outcome.2 && job.state == .passed && !w.cancel (job.decided + 1)) := by
      rw [same]
      rfl
    unfold retry_allowed_after_finish
    rw [success]
    constructor
    · intro retry
      simp only [Bool.and_eq_true, Bool.not_eq_true', beq_iff_eq] at retry
      exact ⟨retry.1.1.1.1.2, retry.1.1.2, retry.1.2, retry.2⟩
    · rintro ⟨done, quiet, selected, asked⟩
      have fine : outcome.2 = true := by
        rw [same, completed_passed] at done
        exact done.2.1
      have quiet' : w.cancel (job.decided + 1) = false :=
        World.cancel_mono (Nat.le_succ _) quiet
      simp [fine, done, quiet, quiet', selected, asked]

/-! ## A check after a sign-in -/

def sampleReports : List (String × String) :=
  [("account", "local_session"), ("catalog", "available"), ("license", "verified"),
    ("library", "available")]

def sampleText (report : String × String) : String :=
  "\x7b\"stage\":\"" ++ report.1 ++ "\",\"state\":\"passed\",\"code\":\"" ++ report.2 ++ "\"\x7d"

/-- A library that reads these reports. -/
@[reducible] def sampleReader : Library where
  capture bytes := (sampleReports.map sampleText).find? (StrictJson.utf8 · == bytes)
  members text := (sampleReports.find? (sampleText · == text)).map fun report =>
    [("stage", "\"" ++ report.1 ++ "\""), ("state", "\"passed\""),
      ("code", "\"" ++ report.2 ++ "\"")]
  items _ := none
  parse _ text := some (.string (String.ofList (text.toList.drop 1).dropLast))
  isFinite _ := true

/-- A helper that reports four stages as passed, and exits well. -/
def sampleHelper : Helper where
  started := true
  turns := [
    ⟨[.data (sampleReports.map fun r => StrictJson.utf8 (sampleText r) ++ [NEWLINE]).flatten,
      .data []], .exited true⟩,
    ⟨[], .alive⟩]
  cleaned := true

def sampleWorld : World where
  cancelled := none
  verified := true
  login := ⟨true, [.exited 0]⟩
  config := some []
  online := sampleHelper
  window := sampleHelper
  selected := some "runtime"

def sampleJob (w : World) : Job := (@start sampleReader w true "runtime" none).1

/-- A stage that was never running passes; a check whose helper cannot be cleaned up does not, and
one that is cancelled after its state is known does. -/
theorem passed_without_running :
    (sampleJob sampleWorld).state = .passed ∧
    (∀ table ∈ (sampleJob sampleWorld).steps.tables,
      (rowOf table "account").map Row.state ≠ some .running) ∧
    (sampleJob { sampleWorld with online := { sampleHelper with cleaned := false } }).state =
      .failed ∧
    (sampleJob { sampleWorld with cancelled := some ((sampleJob sampleWorld).decided + 1) }).state =
      .passed := by
  decide +kernel

end Flightdeck.StoreCheck
