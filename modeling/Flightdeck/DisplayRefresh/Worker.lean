import Flightdeck.DisplayRefresh.Preference

/-!
# The display refresh worker

The requests to Fenix, the refresh of a display and the worker's loop.  What Fenix answers, what the
helper does, where a file cannot be written and where the worker stops is given from outside.
-/

namespace Flightdeck.DisplayRefresh

open Foundation

/-! ## The Fenix API -/

/-- The preference in an answer: as it is, the other value, or none. -/
inductive Told where
  | current | other | nothing
  deriving DecidableEq

def Told.home : Told → Bool → Option Bool
  | .current, home => some home
  | .other, home => some !home
  | .nothing, _ => none

/-- What comes of a query; `ready` says that both displays have their data. -/
inductive Answer where
  | told (home : Told) (ready : Bool)
  | refused
  | stopped

inductive Reply where
  | accepted | refused | stopped

/-- What comes of a write, and whether it took place. -/
structure Write where
  applied : Bool
  reply : Reply

/-- An answer does not give the other value. -/
def Answer.honest : Answer → Bool
  | .told .other _ => false
  | _ => true

variable {Id : Type}

abbrev Act (Id : Type) := EStateM (Stop Unit) (Run Id)

/-- The world changes, and is kept. -/
def change (f : World → World) : Act Id Unit := modify fun r => r.next (f r.world)

def onlyIf (condition : Bool) (act : Act Id Unit) : Act Id Unit :=
  if condition then act else pure ()

/-- `Api::query` with `QUERY` -/
def query (answer : Answer) : Act Id (Option Bool × Bool) :=
  match answer with
  | .stopped => throw .crash
  | .refused => throw (.error ())
  | .told home ready => do
    let r ← get
    change fun w => { w with back := home.home w.home }
    return (home.home r.world.home, ready)

/-- `Api::home` -/
def setHome (value : Bool) (write : Write) : Act Id Unit := do
  onlyIf write.applied (change fun w => { w with home := value, back := none })
  match write.reply with
  | .accepted => return ()
  | .refused => throw (.error ())
  | .stopped => throw .crash

/-- What `recover` meets. -/
structure Recovery where
  readable : Bool
  write : Write
  answer : Answer
  removed : Fault
  synced : Fault

def recover (env : Recovery) : Act Id Unit := do
  let r ← get
  match r.world.journal with
  | none => return ()
  | some value =>
    if env.readable then
      setHome value env.write
      let (told, _) ← query env.answer
      if told = some value then
        perform env.removed () (change fun w => { w with journal := none })
        perform env.synced () (pure ())
      else throw (.error ())
    else throw (.error ())

/-! ## `refresh` -/

/-- What `refresh` meets. -/
structure Attempt where
  /-- the services are the same and own the API -/
  same : Bool
  answer : Answer
  installed : Bool
  probe : Fault
  /-- nothing was cancelled, and the services are still the same -/
  still : Bool
  saved : Fault
  flipped : Write
  flippedBack : Write
  helper : Fault
  recovery : Recovery

def show' (env : Attempt) (original : Bool) : Act Id Unit := do
  setHome (!original) env.flipped
  onlyIf original (setHome true env.flippedBack)
  perform env.helper () (pure ())

def refresh (env : Attempt) : Act Id Bool :=
  if env.same then do
    let (told, ready) ← query env.answer
    match told with
    | none => throw (.error ())
    | some original =>
      if ready && env.installed then
        perform env.probe () (pure ())
        if env.still then
          perform env.saved () (change fun w => { w with journal := some original })
          let result ← outcome (show' env original)
          let recovered ← outcome (recover env.recovery)
          match result, recovered with
          | .ok (), .ok () => return true
          | _, _ => throw (.error ())
        else return false
      else throw (.error ())
  else throw (.error ())

/-! ## `worker` -/

/-- One round of the worker's loop. -/
structure Turn (Id : Type) where
  /-- the display process, where all services are there and own the API -/
  display : Option Id
  recovery : Recovery
  /-- eight seconds have passed since the display process was seen first, or since the last try -/
  settled : Bool
  attempt : Attempt

/-- The worker's variables. -/
structure Local (Id : Type) where
  seen : Option Id
  completed : Option Id
  attempts : Nat

variable [DecidableEq Id]

def Local.see (l : Local Id) (display : Id) : Local Id :=
  if some display = l.seen then l else { l with seen := some display, attempts := 0 }

/-- The end of a round, once the display may be refreshed. -/
def tryRefresh (l : Local Id) (display : Id) (env : Attempt) : Act Id (Local Id) := do
  match ← outcome (refresh env) with
  | .ok true =>
    modify fun r => { r with refreshed := (display, r.world) :: r.refreshed }
    return { l with completed := some display }
  | .ok false => return l
  | .error _ => return { l with attempts := l.attempts + 1 }

def turn (l : Local Id) (t : Turn Id) : Act Id (Local Id) :=
  match t.display with
  | none => return { l with seen := none }
  | some display => do
    match ← outcome (recover t.recovery) with
    | .error _ => return l.see display
    | .ok () =>
      if some display = (l.see display).completed || (l.see display).attempts ≥ 3 ||
          !t.settled then return l.see display
      else tryRefresh (l.see display) display t.attempt

/-- A worker: its rounds until it is cancelled, and the last recovery where Fenix is there. -/
structure Life (Id : Type) where
  turns : List (Turn Id)
  last : Option Recovery

def worker (life : Life Id) : Act Id Unit := do
  modify fun r => { r with refreshed := [] }
  let _ ← life.turns.foldlM turn ⟨none, none, 0⟩
  match life.last with
  | none => return ()
  | some env => do
    let _ ← outcome (recover env)
    return ()

/-- One worker after the other, however each ended. -/
def lives (workers : List (Life Id)) (r : Run Id) : Run Id :=
  workers.foldl (fun r life => stateOf (worker life r)) r

/-! ## Honest answers -/

def Attempt.honest (env : Attempt) : Bool := env.answer.honest && env.recovery.answer.honest

def Turn.honest (t : Turn Id) : Bool := t.recovery.answer.honest && t.attempt.honest

/-- No answer in a worker's life gives the wrong value. -/
def Life.honest (life : Life Id) : Bool :=
  life.turns.all Turn.honest && life.last.all (·.answer.honest)

end Flightdeck.DisplayRefresh
