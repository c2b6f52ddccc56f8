import CertaelAgent.Foundation.Results

/-!
# Errors with context

An error is what first went wrong with the texts that callers have put in front of it.
-/

namespace Anyhow

inductive Error
  | io
  | message (text : String)
  | context (text : String) (source : Error)
deriving DecidableEq, Repr

/-- What first went wrong. -/
def Error.rootCause : Error → Error
  | .context _ source => source.rootCause
  | error => error

abbrev Result (α : Type) := Except Error α

variable {α : Type}

def bail (text : String) : Result α := .error (.message text)

/-- Puts a text in front of an error. -/
def context (text : String) (result : Result α) : Result α := result.mapError (.context text)

/-- A lookup of the operating system that may fail. -/
def io (lookup : Option α) : Result α := Except.ofOption .io lookup

@[simp] theorem context_ok (text : String) (a : α) : context text (.ok a) = .ok a := rfl

@[simp] theorem context_error (text : String) (e : Error) :
    context text (.error e : Result α) = .error (.context text e) := rfl

theorem context_eq_ok_iff {text : String} {result : Result α} {a : α} :
    context text result = .ok a ↔ result = .ok a := Except.mapError_eq_ok_iff

theorem io_eq_ok_iff {lookup : Option α} {a : α} : io lookup = .ok a ↔ lookup = some a :=
  Except.ofOption_eq_ok_iff

end Anyhow
