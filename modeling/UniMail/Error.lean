import Mathlib.Tactic.Common

/-!
# The shared error type

Every fallible operation returns a `Result`. A call of an asynchronous function can also end in a
panic, which is not an `AppError`: its outcome is a `Result` or a panic (`Failure`).
-/

namespace UniMail

/-- Top-level application error, each with its message. -/
inductive AppError
  | config (msg : String)
  | notFound (msg : String)
  | auth (msg : String)
  | tokenExpired (msg : String)
  | provider (msg : String)
  | storage (msg : String)
  | invalidRequest (msg : String)
  | internal (msg : String)
  | io (msg : String)
  deriving DecidableEq, Repr

/-- `AppError::to_string`. -/
def AppError.display : AppError → String
  | .config msg => s!"configuration error: {msg}"
  | .notFound msg => msg
  | .auth msg => s!"authorization error: {msg}"
  | .tokenExpired msg => s!"authentication expired: {msg}"
  | .provider msg => s!"provider error: {msg}"
  | .storage msg => s!"storage error: {msg}"
  | .invalidRequest msg => s!"invalid request: {msg}"
  | .internal msg => s!"internal error: {msg}"
  | .io msg => s!"io error: {msg}"

/-- Result alias used throughout the crate. -/
abbrev Result (α : Type) := Except AppError α

/-- How a call can fail: with an error it returns, or with a panic that unwinds it. -/
inductive Failure
  | err (e : AppError)
  | panic (msg : String)
  deriving DecidableEq, Repr

/-- The outcome of a call of an asynchronous function. -/
abbrev Outcome (α : Type) := Except Failure α

/-! ### Inversion of a chain of fallible steps -/

section Inversion

variable {ε ε' α β : Type} {x : Except ε α} {f : α → Except ε β}

theorem bind_eq_ok {b : β} : x >>= f = .ok b ↔ ∃ a, x = .ok a ∧ f a = .ok b := by
  cases x with
  | error e => simp [bind, Except.bind]
  | ok a => simp [bind, Except.bind]

theorem bind_eq_error {e : ε} :
    x >>= f = .error e ↔ x = .error e ∨ ∃ a, x = .ok a ∧ f a = .error e := by
  cases x with
  | error e => simp [bind, Except.bind]
  | ok a => simp [bind, Except.bind]

/-- The step that fails has its error dressed up; one that succeeds is left as it is. -/
theorem mapError_eq_ok {g : ε → ε'} {a : α} : x.mapError g = .ok a ↔ x = .ok a := by
  cases x with
  | error e => simp [Except.mapError]
  | ok a => simp [Except.mapError]

end Inversion

end UniMail
