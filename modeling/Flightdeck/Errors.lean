import Mathlib.Tactic

/-!
# Errors

The two error types of the launcher.  `Failure` is what cloud operations return: a static code and
bounded diagnostics.  `Error` is what everything else returns.
-/

namespace Flightdeck

/-- The static codes of `Failure::new`. -/
inductive Code where
  | authentication | bounds | busy | cancelled | changed | conflict | deadline | durabilityUnknown
  | httpError | invalidInput | invalidLock | invalidPlan | invalidReceipt | invalidRequest
  | invalidResponse | invalidScope | invalidSession | invalidSnapshot | leaseLost | localChanged
  | localStorage | notFound | quota | readback | transport | unsupported
  deriving DecidableEq, Repr

/-- The code as the source spells it. -/
def Code.text : Code → String
  | .authentication => "authentication"
  | .bounds => "bounds"
  | .busy => "busy"
  | .cancelled => "cancelled"
  | .changed => "changed"
  | .conflict => "conflict"
  | .deadline => "deadline"
  | .durabilityUnknown => "durability_unknown"
  | .httpError => "http_error"
  | .invalidInput => "invalid_input"
  | .invalidLock => "invalid_lock"
  | .invalidPlan => "invalid_plan"
  | .invalidReceipt => "invalid_receipt"
  | .invalidRequest => "invalid_request"
  | .invalidResponse => "invalid_response"
  | .invalidScope => "invalid_scope"
  | .invalidSession => "invalid_session"
  | .invalidSnapshot => "invalid_snapshot"
  | .leaseLost => "lease_lost"
  | .localChanged => "local_changed"
  | .localStorage => "local_storage"
  | .notFound => "not_found"
  | .quota => "quota"
  | .readback => "readback"
  | .transport => "transport"
  | .unsupported => "unsupported"

/-- No two codes are spelled alike. -/
theorem Code.text_injective : Function.Injective Code.text := by
  intro a b h
  cases a <;> cases b <;> first | rfl | simp [Code.text] at h

structure Failure where
  code : Code
  committedContainers : Nat := 0
  recoveryRequired : Bool := false
  httpStatus : Option UInt16 := none
  deriving DecidableEq, Repr

def Failure.new (code : Code) : Failure := { code }

def Failure.status (failure : Failure) (status : UInt16) : Failure :=
  { failure with httpStatus := if 100 ≤ status ∧ status ≤ 599 then some status else none }

/-- `arithmetic` is no value of the source: it marks an integer operation that would leave its
range, where the source panics or wraps. -/
inductive Error where
  | invalid (message : String)
  | io
  | json
  | cancelled
  | cloud (failure : Failure)
  | arithmetic
  deriving DecidableEq, Repr

/-- `impl From<crate::Error> for Failure`. -/
def Failure.ofError : Error → Failure
  | .cloud failure => failure
  | .cancelled => .new .cancelled
  | _ => .new .localStorage

/-- `error::require` and `cloud::require`. -/
def require {ε : Type} (condition : Bool) (error : ε) : Except ε Unit :=
  if condition then .ok () else .error error

@[simp] theorem require_true {ε : Type} (error : ε) : require true error = .ok () := rfl

@[simp] theorem require_false {ε : Type} (error : ε) : require false error = .error error := rfl

@[simp] theorem require_eq_ok {ε : Type} {condition : Bool} {error : ε} {u : Unit} :
    require condition error = .ok u ↔ condition = true := by
  cases condition <;> simp [require]

/-- Subtraction on `usize`. -/
def checkedSub (a b : Nat) : Except Error Nat :=
  if b ≤ a then .ok (a - b) else .error .arithmetic

theorem checkedSub_eq_ok {a b n : Nat} : checkedSub a b = .ok n ↔ b ≤ a ∧ n = a - b := by
  unfold checkedSub
  split
  · simp_all [eq_comm]
  · simp_all

theorem checkedSub_of_le {a b : Nat} (h : b ≤ a) : checkedSub a b = .ok (a - b) := if_pos h

end Flightdeck
